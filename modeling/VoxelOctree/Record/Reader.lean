import VoxelOctree.Json.Skip
import VoxelOctree.Record.Text

namespace VoxelOctree

namespace Json

def readNumeral : Reader Numeral := fun s =>
  let s := skipBlank s
  match s with
  | c :: _ => if c = '-' ∨ c.isDigit then Numeral.read s else .error (mismatchCause s)
  | [] => .error .ended

def readSingle : Reader Single := fun s => do
  let (n, s) ← readNumeral s
  return (n.toSingle, s)

def readWord : Reader UInt32 := fun s => do
  match ← readNumeral s with
  | (.natural n, s) => if n < UInt32.size then return (UInt32.ofNat n, s) else .error .mismatch
  | _ => .error .mismatch

def readFlag : Reader Bool := fun s => do
  let (w, s) ← readWord s
  return (decide (w ≠ 0), s)

def openArray (s : List Char) : Except Cause (List Char) :=
  let s := skipBlank s
  match s with
  | c :: rest => if c = '[' then .ok rest else .error (mismatchCause s)
  | [] => .error .ended

def readVec3 {α : Type} (read : Reader α) : Reader (Vec3 α) := fun s => do
  let s ← openArray s
  let (x, s) ← element true read s
  let (y, s) ← element false read s
  let (z, s) ← element false read s
  return (⟨x, y, z⟩, ← closeArray s)

def readLinks : Reader (Vector UInt32 8) := fun s => do
  let s ← openArray s
  let (a, s) ← element true readWord s
  let (b, s) ← element false readWord s
  let (c, s) ← element false readWord s
  let (d, s) ← element false readWord s
  let (e, s) ← element false readWord s
  let (f, s) ← element false readWord s
  let (g, s) ← element false readWord s
  let (h, s) ← element false readWord s
  return (#v[a, b, c, d, e, f, g, h], ← closeArray s)

inductive Member (δ : Type) where
  | unknown
  | repeated
  | known (read : Reader δ)

/-- The members up to the closing brace. Each takes at least one character, so the number of characters
left bounds their number. -/
def readMembers {δ : Type} (member : List Char → δ → Member δ) :
    Nat → Bool → δ → Reader δ
  | 0, _, _, _ => .error .malformed
  | count + 1, isFirst, draft, s => do
    match ← nextName isFirst s with
    | .inr rest => return (draft, rest)
    | .inl s =>
      let (name, s) ← Quoted.read s
      match member name draft with
      | .repeated => .error .mismatch
      | .unknown => readMembers member count false draft (← skipValue (← colon s))
      | .known read =>
        let (draft, s) ← read (← colon s)
        readMembers member count false draft s

/-- A value in either form: an object whose members fill a draft, or an array. -/
def readEither {α δ : Type} (member : List Char → δ → Member δ) (start : δ) (finish : δ → Option α)
    (array : Reader α) : Reader α := fun s =>
  let s := skipBlank s
  match s with
  | c :: rest =>
    if c = '\x7b' then do
      let (draft, rest) ← readMembers member (rest.length + 1) true start rest
      match finish draft with
      | some a => return (a, rest)
      | none => .error .mismatch
    else if c = '[' then array rest
    else .error (mismatchCause s)
  | [] => .error .ended

def Member.into {α δ : Type} (taken : Option α) (read : Reader α) (store : α → δ) : Member δ :=
  if taken.isSome then .repeated
  else .known fun s => do
    let (a, s) ← read s
    return (store a, s)

structure MaterialDraft where
  emittance : Option (Vec3 Single) := none
  reflectance : Option (Vec3 Single) := none
  roughness : Option Single := none
  opacity : Option Single := none

namespace MaterialDraft

def member (name : List Char) (d : MaterialDraft) : Member MaterialDraft :=
  match MaterialField.all.find? fun f => decide (f.name = name) with
  | some .emittance => .into d.emittance (readVec3 readSingle) fun a => { d with emittance := some a }
  | some .reflectance => .into d.reflectance (readVec3 readSingle) fun a => { d with reflectance := some a }
  | some .roughness => .into d.roughness readSingle fun a => { d with roughness := some a }
  | some .opacity => .into d.opacity readSingle fun a => { d with opacity := some a }
  | none => .unknown

def finish (d : MaterialDraft) : Option Material := do
  return ⟨← d.emittance, ← d.reflectance, ← d.roughness, ← d.opacity⟩

end MaterialDraft

def readMaterial : Reader Material :=
  readEither MaterialDraft.member {} MaterialDraft.finish fun s => do
    let (emittance, s) ← element true (readVec3 readSingle) s
    let (reflectance, s) ← element false (readVec3 readSingle) s
    let (roughness, s) ← element false readSingle s
    let (opacity, s) ← element false readSingle s
    return (⟨emittance, reflectance, roughness, opacity⟩, ← closeArray s)

structure RecordDraft where
  position : Option (Vec3 Single) := none
  orientation : Option (Vec3 (Vec3 Single)) := none
  size : Option Single := none
  material : Option Material := none
  children : Option (Vector UInt32 8) := none
  isLeaf : Option Bool := none
  isEmpty : Option Bool := none

namespace RecordDraft

def member (name : List Char) (d : RecordDraft) : Member RecordDraft :=
  match RecordField.all.find? fun f => decide (f.name = name) with
  | some .position => .into d.position (readVec3 readSingle) fun a => { d with position := some a }
  | some .orientation =>
    .into d.orientation (readVec3 (readVec3 readSingle)) fun a => { d with orientation := some a }
  | some .size => .into d.size readSingle fun a => { d with size := some a }
  | some .material => .into d.material readMaterial fun a => { d with material := some a }
  | some .children => .into d.children readLinks fun a => { d with children := some a }
  | some .isLeaf => .into d.isLeaf readFlag fun a => { d with isLeaf := some a }
  | some .isEmpty => .into d.isEmpty readFlag fun a => { d with isEmpty := some a }
  | none => .unknown

def finish (d : RecordDraft) : Option Record := do
  return ⟨← d.position, ← d.orientation, ← d.size, ← d.material, ← d.children, ← d.isLeaf, ← d.isEmpty⟩

end RecordDraft

def readRecord : Reader Record :=
  readEither RecordDraft.member {} RecordDraft.finish fun s => do
    let (position, s) ← element true (readVec3 readSingle) s
    let (orientation, s) ← element false (readVec3 (readVec3 readSingle)) s
    let (size, s) ← element false readSingle s
    let (material, s) ← element false readMaterial s
    let (children, s) ← element false readLinks s
    let (isLeaf, s) ← element false readFlag s
    let (isEmpty, s) ← element false readFlag s
    return (⟨position, orientation, size, material, children, isLeaf, isEmpty⟩, ← closeArray s)

def readElements {α : Type} (read : Reader α) : Nat → Bool → Reader (List α)
  | 0, _, _ => .error .malformed
  | count + 1, isFirst, s => do
    match ← nextElement isFirst s with
    | none => return ([], ← closeArray s)
    | some s =>
      let (a, s) ← read s
      let (rest, s) ← readElements read count false s
      return (a :: rest, s)

def decodeRecords (s : List Char) : Except Cause (List Record) := do
  let s ← openArray s
  let (records, rest) ← readElements readRecord (s.length + 1) true s
  if (skipBlank rest).isEmpty then return records else .error .malformed

end Json

end VoxelOctree
