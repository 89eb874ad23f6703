import VoxelOctree.LittleEndian
import VoxelOctree.Log
import VoxelOctree.Model
import VoxelOctree.Utf8

namespace VoxelOctree

namespace Vox

def split? (n : Nat) (bs : List UInt8) : Option (List UInt8 × List UInt8) :=
  if n ≤ bs.length then some (bs.take n, bs.drop n) else none

def word? (bs : List UInt8) : Option (Nat × List UInt8) :=
  (split? 4 bs).map fun r => (ofLittleEndian r.1, r.2)

structure Chunk where
  id : List UInt8
  content : List UInt8
  children : List UInt8
  deriving DecidableEq, Repr

namespace Chunk

def read? (bs : List UInt8) : Option (Chunk × List UInt8) := do
  let (id, bs) ← split? 4 bs
  let (contentSize, bs) ← word? bs
  let (childrenSize, bs) ← word? bs
  let (content, bs) ← split? contentSize bs
  let (children, bs) ← split? childrenSize bs
  if Utf8.isValid id then return (⟨id, content, children⟩, bs) else none

theorem length_of_split? {n : Nat} {bs a rest : List UInt8} (h : split? n bs = some (a, rest)) :
    rest.length + n = bs.length := by
  simp only [split?] at h
  split at h
  · cases h
    simp only [List.length_drop]
    omega
  · cases h

theorem length_of_word? {w : Nat} {bs rest : List UInt8} (h : word? bs = some (w, rest)) :
    rest.length + 4 = bs.length := by
  obtain ⟨⟨a, r⟩, hs, he⟩ := Option.map_eq_some_iff.1 h
  cases he
  exact length_of_split? hs

theorem length_of_read? {bs rest : List UInt8} {c : Chunk} (h : read? bs = some (c, rest)) :
    rest.length < bs.length := by
  simp only [read?, bind, Option.bind_eq_some_iff] at h
  obtain ⟨⟨id, bs₁⟩, h₁, ⟨n, bs₂⟩, h₂, ⟨m, bs₃⟩, h₃, ⟨content, bs₄⟩, h₄, ⟨children, bs₅⟩, h₅, h⟩ := h
  split at h
  · cases h
    have l₁ := length_of_split? h₁
    have l₂ := length_of_word? h₂
    have l₃ := length_of_word? h₃
    have l₄ := length_of_split? h₄
    have l₅ := length_of_split? h₅
    dsimp only at l₂ l₃ l₄ l₅ ⊢
    omega
  · cases h

def readAll (bs : List UInt8) : List Chunk :=
  match _h : read? bs with
  | none => []
  | some (c, rest) => c :: readAll rest
termination_by bs.length
decreasing_by exact length_of_read? _h

end Chunk

def mainId : List UInt8 := [0x4D, 0x41, 0x49, 0x4E]

def sizeId : List UInt8 := [0x53, 0x49, 0x5A, 0x45]

def voxelsId : List UInt8 := [0x58, 0x59, 0x5A, 0x49]

def magic : List UInt8 := [0x56, 0x4F, 0x58, 0x20]

def size? (content : List UInt8) : Option (Vec3 UInt32) := do
  let (x, rest) ← word? content
  let (y, rest) ← word? rest
  let (z, _) ← word? rest
  return ⟨UInt32.ofNat x, UInt32.ofNat y, UInt32.ofNat z⟩

def voxels : List UInt8 → List Point
  | x :: y :: z :: _ :: rest => ⟨x.toUInt32, y.toUInt32, z.toUInt32⟩ :: voxels rest
  | _ => []

def points? (content : List UInt8) : Option (List Point) := do
  let (count, rest) ← word? content
  let (body, _) ← split? (4 * count) rest
  return voxels body

structure Scene where
  size : Option (Vec3 UInt32)
  models : List VoxelModel
  deriving DecidableEq, Repr

/-- Takes a chunk into account: a size is kept for the models after it, a list of points is a model if
there is a size. -/
def Scene.add (scene : Scene) (c : Chunk) : Scene :=
  if !c.children.isEmpty then scene
  else if c.id = sizeId then
    match size? c.content with
    | some size => { scene with size := some size }
    | none => scene
  else if c.id = voxelsId then
    match scene.size, points? c.content with
    | some size, some points => { scene with models := scene.models ++ [⟨size, points⟩] }
    | _, _ => scene
  else scene

def models? (bs : List UInt8) : Option (List VoxelModel) := do
  let (head, bs) ← split? 4 bs
  if head ≠ magic then none
  else
    let (_, bs) ← word? bs
    let (main, _) ← Chunk.read? bs
    if main.id = mainId then
      return ((Chunk.readAll main.children).foldl Scene.add ⟨none, []⟩).models
    else return []

inductive Refusal where
  | notVox
  | noModel (index count : Nat)
  deriving DecidableEq, Repr

def Refusal.message : Refusal → String
  | notVox => "Not a valid MagicaVoxel .vox file"
  | noModel index count => s!"model {index} not found, file has {count} models"

def model (bs : List UInt8) (index : Nat) : Except Refusal VoxelModel :=
  match models? bs with
  | none => .error .notVox
  | some models =>
    match models[index]? with
    | some m => .ok m
    | none => .error (.noModel index models.length)

def decode (bs : List UInt8) (index : Nat) : Except Error VoxelModel :=
  (model bs index).mapError fun r => .inputDecode r.message

def decodeLog (index : Nat) (m : VoxelModel) : Log :=
  [⟨.debug, "fastvox_scene::source",
    s!"Decoded model {index}: size {Point.text m.size}, {m.points.length} voxels"⟩]

end Vox

end VoxelOctree
