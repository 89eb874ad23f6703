import Mathlib.Data.List.Basic
import VoxelOctree.Vox.Writer

namespace VoxelOctree

namespace Vox

theorem split?_append {n : Nat} {front : List UInt8} (h : front.length = n) (rest : List UInt8) :
    split? n (front ++ rest) = some (front, rest) := by
  subst h
  simp [split?]

theorem word?_append {n : Nat} (h : n < UInt32.size) (rest : List UInt8) :
    word? (littleEndian n 4 ++ rest) = some (n, rest) := by
  rw [word?, split?_append (length_littleEndian n 4), Option.map_some, ofLittleEndian_littleEndian n 4 h]

namespace Chunk

structure IsWritable (c : Chunk) : Prop where
  id : c.id.length = 4 ∧ Utf8.isValid c.id = true
  content : c.content.length < UInt32.size
  children : c.children.length < UInt32.size

variable {c : Chunk}

theorem bytes_append (c : Chunk) (rest : List UInt8) : c.bytes ++ rest =
    c.id ++ (littleEndian c.content.length 4 ++ (littleEndian c.children.length 4 ++
      (c.content ++ (c.children ++ rest)))) := by
  simp only [bytes, List.append_assoc]

theorem length_bytes (h : c.id.length = 4) : c.bytes.length = 12 + c.content.length + c.children.length := by
  simp only [bytes, List.length_append, length_littleEndian, h]

theorem read?_append (h : c.IsWritable) (rest : List UInt8) : read? (c.bytes ++ rest) = some (c, rest) := by
  have hname := split?_append h.id.1 (littleEndian c.content.length 4 ++ (littleEndian c.children.length 4 ++
    (c.content ++ (c.children ++ rest))))
  have hcontent := split?_append (rfl : c.content.length = c.content.length) (c.children ++ rest)
  have hchildren := split?_append (rfl : c.children.length = c.children.length) rest
  simp only [read?, bytes_append, hname, word?_append h.content, word?_append h.children, hcontent, hchildren,
    Option.bind_eq_bind, Option.bind_some, h.id.2, ↓reduceIte]
  rfl

theorem readAll_nil : readAll [] = [] := by
  rw [readAll]
  rfl

theorem readAll_append (h : c.IsWritable) (rest : List UInt8) : readAll (c.bytes ++ rest) = c :: readAll rest := by
  rw [readAll]
  split
  · next hnone => rw [read?_append h] at hnone; cases hnone
  · next hsome =>
    rw [read?_append h] at hsome
    cases hsome
    rfl

theorem readAll_flatMap {cs : List Chunk} (h : ∀ c ∈ cs, c.IsWritable) : readAll (cs.flatMap bytes) = cs := by
  induction cs with
  | nil => exact readAll_nil
  | cons c cs ih =>
    rw [List.flatMap_cons, readAll_append (h c List.mem_cons_self),
      ih fun d hd => h d (List.mem_cons_of_mem c hd)]

/-- A chunk that says nothing about models: it has chunks inside, or it is neither a size nor a list of points. -/
structure IsOther (c : Chunk) : Prop where
  id : c.id.length = 4 ∧ Utf8.isValid c.id = true
  other : c.children ≠ [] ∨ c.id ≠ sizeId ∧ c.id ≠ voxelsId

end Chunk

theorem size?_words (size : Vec3 UInt32) : size? (size.toList.flatMap fun n => littleEndian n.toNat 4) = some size := by
  obtain ⟨x, y, z⟩ := size
  simp only [Vec3.toList, List.flatMap_cons, List.flatMap_nil, size?, word?_append x.toNat_lt_size,
    word?_append y.toNat_lt_size, word?_append z.toNat_lt_size, Option.bind_eq_bind, Option.bind_some,
    UInt32.ofNat_toNat]
  rfl

theorem voxels_flatMap (vs : List Voxel) :
    voxels (vs.flatMap fun v => [v.x, v.y, v.z, v.color]) = vs.map Voxel.point := by
  induction vs with
  | nil => rfl
  | cons v vs ih =>
    rw [List.flatMap_cons, List.map_cons, ← ih]
    rfl

theorem length_voxels (vs : List Voxel) : (vs.flatMap fun v => [v.x, v.y, v.z, v.color]).length = 4 * vs.length := by
  induction vs with
  | nil => rfl
  | cons v vs ih =>
    rw [List.flatMap_cons, List.length_append, ih, List.length_cons]
    exact Nat.add_comm 4 _

theorem points?_counted {vs : List Voxel} (h : vs.length < UInt32.size) :
    points? (littleEndian vs.length 4 ++ vs.flatMap fun v => [v.x, v.y, v.z, v.color]) =
      some (vs.map Voxel.point) := by
  have hbody := split?_append (length_voxels vs) []
  rw [List.append_nil] at hbody
  simp only [points?, word?_append h, hbody, Option.bind_eq_bind, Option.bind_some, voxels_flatMap]
  rfl

namespace Scene

variable {scene : Scene}

theorem add_other {c : Chunk} (h : c.IsOther) : scene.add c = scene := by
  rw [add]
  rcases h.other with hinside | ⟨hsize, hvoxels⟩
  · rw [if_pos (by simpa using hinside)]
  · rw [if_neg hsize, if_neg hvoxels, ite_self]

theorem foldl_other {cs : List Chunk} (h : ∀ c ∈ cs, c.IsOther) : cs.foldl add scene = scene := by
  induction cs with
  | nil => rfl
  | cons c cs ih =>
    rw [List.foldl_cons, add_other (h c List.mem_cons_self)]
    exact ih fun d hd => h d (List.mem_cons_of_mem c hd)

theorem add_sizeChunk (m : ModelChunks) : scene.add m.sizeChunk = { scene with size := some m.size } := by
  have hsize : size? m.sizeChunk.content = some m.size := size?_words m.size
  have hid : m.sizeChunk.id = sizeId := rfl
  have hinside : m.sizeChunk.children = [] := rfl
  rw [add, hsize, hid, hinside]
  rfl

theorem add_voxelsChunk {m : ModelChunks} (h : m.voxels.length < UInt32.size) (models : List VoxelModel) :
    (⟨some m.size, models⟩ : Scene).add m.voxelsChunk = ⟨some m.size, models ++ [m.model]⟩ := by
  have hpoints : points? m.voxelsChunk.content = some (m.voxels.map Voxel.point) := points?_counted h
  have hid : m.voxelsChunk.id = voxelsId := rfl
  have hinside : m.voxelsChunk.children = [] := rfl
  have hname : voxelsId ≠ sizeId := by decide
  rw [add, hpoints, hid, hinside, if_neg hname]
  rfl

end Scene

namespace ModelChunks

def others (m : ModelChunks) : List Chunk :=
  m.beforeSize ++ m.beforeVoxels

-- The size in front of a list of points is its own, whatever size was left by the model before.
theorem foldl_chunks {m : ModelChunks} (hother : ∀ c ∈ m.others, c.IsOther) (h : m.voxels.length < UInt32.size)
    (scene : Scene) : m.chunks.foldl Scene.add scene = ⟨some m.size, scene.models ++ [m.model]⟩ := by
  obtain ⟨hsize, hvoxels⟩ := List.forall_mem_append.mp hother
  rw [chunks, List.append_assoc, List.foldl_append, Scene.foldl_other hsize, List.cons_append, List.foldl_cons,
    Scene.add_sizeChunk, List.foldl_append, Scene.foldl_other hvoxels, List.foldl_cons, Scene.add_voxelsChunk h]
  rfl

theorem foldl_flatMap_chunks {ms : List ModelChunks} (hother : ∀ m ∈ ms, ∀ c ∈ m.others, c.IsOther)
    (h : ∀ m ∈ ms, m.voxels.length < UInt32.size) (scene : Scene) :
    ((ms.flatMap chunks).foldl Scene.add scene).models = scene.models ++ ms.map model := by
  induction ms generalizing scene with
  | nil => exact (List.append_nil _).symm
  | cons m ms ih =>
    obtain ⟨hm, hms⟩ := List.forall_mem_cons.mp hother
    obtain ⟨hlength, hlengths⟩ := List.forall_mem_cons.mp h
    rw [List.flatMap_cons, List.foldl_append, foldl_chunks hm hlength, ih hms hlengths, List.map_cons,
      List.append_assoc]
    rfl

end ModelChunks

namespace File

def chunks (f : File) : List Chunk :=
  f.models.flatMap ModelChunks.chunks ++ f.afterModels

structure IsWritable (f : File) : Prop where
  models : ∀ m ∈ f.models, ∀ c ∈ m.others, c.IsOther
  afterModels : ∀ c ∈ f.afterModels, c.IsOther
  content : f.main.content.length < UInt32.size
  children : f.main.children.length < UInt32.size

namespace IsWritable

variable {f : File}

theorem id_of_mem (h : f.IsWritable) {c : Chunk} (hc : c ∈ f.chunks) : c.id.length = 4 ∧ Utf8.isValid c.id = true := by
  have hsize : sizeId.length = 4 ∧ Utf8.isValid sizeId = true := by decide +kernel
  have hvoxels : voxelsId.length = 4 ∧ Utf8.isValid voxelsId = true := by decide +kernel
  rcases List.mem_append.mp hc with hc | hc
  · obtain ⟨m, hm, hc⟩ := List.mem_flatMap.mp hc
    have hother := h.models m hm
    simp only [ModelChunks.others, List.forall_mem_append] at hother
    simp only [ModelChunks.chunks, List.mem_append, List.mem_cons, List.not_mem_nil, or_false] at hc
    rcases hc with (hc | rfl | hc) | rfl
    · exact (hother.1 c hc).id
    · exact hsize
    · exact (hother.2 c hc).id
    · exact hvoxels
  · exact (h.afterModels c hc).id

theorem isWritable_of_mem (h : f.IsWritable) {c : Chunk} (hc : c ∈ f.chunks) : c.IsWritable := by
  have hid := h.id_of_mem hc
  have hlength : c.bytes.length ≤ f.main.children.length := by
    obtain ⟨front, back, happ⟩ := List.append_of_mem hc
    have hmain : f.main.children = f.chunks.flatMap Chunk.bytes := rfl
    rw [hmain, happ, List.flatMap_append, List.flatMap_cons, List.length_append, List.length_append]
    omega
  have hall := h.children
  rw [Chunk.length_bytes hid.1] at hlength
  exact ⟨hid, by omega, by omega⟩

theorem length_voxels_lt (h : f.IsWritable) {m : ModelChunks} (hm : m ∈ f.models) : m.voxels.length < UInt32.size := by
  have hmem : m.voxelsChunk ∈ f.chunks :=
    List.mem_append_left _ (List.mem_flatMap.mpr ⟨m, hm, by simp [ModelChunks.chunks]⟩)
  have hcontent := (h.isWritable_of_mem hmem).content
  rw [ModelChunks.voxelsChunk, List.length_append, length_littleEndian, length_voxels] at hcontent
  omega

theorem models?_bytes (h : f.IsWritable) : models? f.bytes = some (f.models.map ModelChunks.model) := by
  have hmagic : magic.length = 4 := rfl
  have hname : mainId.length = 4 ∧ Utf8.isValid mainId = true := by decide +kernel
  have hmain : f.main.IsWritable := ⟨hname, h.content, h.children⟩
  have hchunks : Chunk.readAll f.main.children = f.chunks := Chunk.readAll_flatMap fun c hc => h.isWritable_of_mem hc
  have hmodels := ModelChunks.foldl_flatMap_chunks h.models (fun m hm => h.length_voxels_lt hm) ⟨none, []⟩
  have hid : f.main.id = mainId := rfl
  simp only [models?, bytes, List.append_assoc, split?_append hmagic, word?_append f.version.toNat_lt_size,
    Chunk.read?_append hmain, Option.bind_eq_bind, Option.bind_some, hid, hchunks, ↓reduceIte, ne_eq, not_true_eq_false,
    chunks, List.foldl_append, Scene.foldl_other h.afterModels, hmodels]
  rfl

end IsWritable

end File

/-- Every model of a file is read back under its number, and no other number leads to one. -/
theorem decode_bytes {f : File} (h : f.IsWritable) (i : Nat) :
    (∀ m, f.models[i]? = some m → decode f.bytes i =
      .ok ⟨m.size, m.voxels.map fun v => ⟨v.x.toUInt32, v.y.toUInt32, v.z.toUInt32⟩⟩) ∧
    (f.models.length ≤ i → decode f.bytes i =
      .error (.inputDecode s!"model {i} not found, file has {f.models.length} models")) := by
  constructor
  · intro m hm
    have hmodel : model f.bytes i = .ok m.model := by simp [model, h.models?_bytes, hm]
    rw [decode, hmodel]
    rfl
  · intro hi
    have hmodel : model f.bytes i = .error (.noModel i f.models.length) := by
      simp [model, h.models?_bytes, List.getElem?_eq_none hi]
    rw [decode, hmodel]
    rfl

theorem decode_bytes_mixed : ∃ f : File, f.IsWritable ∧ f.models.length = 2 ∧ f.trailing = [0x56] ∧
    decode f.bytes 1 = .ok ⟨⟨4294967295, 0, 7⟩, [⟨255, 0, 3⟩, ⟨255, 0, 3⟩, ⟨1, 2, 3⟩]⟩ ∧
    decode f.bytes 2 = .error (.inputDecode s!"model {2} not found, file has {2} models") := by
  let inner : Chunk := ⟨sizeId, [1, 2, 3], [9]⟩
  let named : Chunk := ⟨[0xC3, 0xA9, 0xCE, 0xBB], [0xFF], []⟩
  let f : File := ⟨150, [1], [⟨⟨1, 1, 1⟩, [], [named], []⟩,
    ⟨⟨4294967295, 0, 7⟩, [⟨255, 0, 3, 9⟩, ⟨255, 0, 3, 1⟩, ⟨1, 2, 3, 4⟩], [], [inner, named]⟩], [inner], [0x56]⟩
  have hinner : inner.IsOther := ⟨by decide +kernel, by decide⟩
  have hnamed : named.IsOther := ⟨by decide +kernel, by decide⟩
  have h : f.IsWritable := by
    refine ⟨?_, ?_, by decide, by decide +kernel⟩
    · simp [f, ModelChunks.others, hinner, hnamed]
    · simp [f, hinner]
  exact ⟨f, h, rfl, rfl, (decode_bytes h 1).1 _ rfl, (decode_bytes h 2).2 (by decide)⟩

end Vox

end VoxelOctree
