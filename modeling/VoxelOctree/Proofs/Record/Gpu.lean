import Mathlib.Data.List.Basic
import Mathlib.Tactic.FinCases
import Mathlib.Tactic.IntervalCases
import VoxelOctree.Convert
import VoxelOctree.Record.GpuReader

namespace VoxelOctree

section Blocks

variable {α β : Type} {f : α → List β} {n : Nat}

theorem length_flatMap_blocks (hf : ∀ a, (f a).length = n) (as : List α) : (as.flatMap f).length = n * as.length := by
  induction as with
  | nil => rfl
  | cons a as ih =>
    rw [List.flatMap_cons, List.length_append, hf, ih, List.length_cons, Nat.mul_succ, Nat.add_comm]

theorem drop_flatMap_blocks (hf : ∀ a, (f a).length = n) (as : List α) (i : Nat) :
    (as.flatMap f).drop (n * i) = (as.drop i).flatMap f := by
  induction i generalizing as with
  | zero => rfl
  | succ i ih =>
    cases as with
    | nil => simp
    | cons a as =>
      rw [List.flatMap_cons, Nat.mul_succ, Nat.add_comm, List.drop_append, hf, List.drop_eq_nil_of_le (by simp [hf]),
        Nat.add_sub_cancel_left, ih]
      rfl

theorem take_drop_flatMap_blocks (hf : ∀ a, (f a).length = n) {as : List α} {i : Nat} {a : α} (ha : as[i]? = some a) :
    ((as.flatMap f).drop (n * i)).take n = f a := by
  obtain ⟨hi, rfl⟩ := List.getElem?_eq_some_iff.mp ha
  rw [drop_flatMap_blocks hf, List.drop_eq_getElem_cons hi, List.flatMap_cons, List.take_left' (hf _)]

end Blocks

namespace GpuNode

def fieldWords : List Nat :=
  [0, 1, 2, 4, 5, 6, 8, 9, 10, 12, 13, 14] ++ [20] ++ [21, 22, 23] ++ [25, 26, 27] ++ [29, 30] ++
    [31, 32, 33, 34, 35, 36, 37, 38] ++ [39, 40]

def fixedWord (j : Nat) : UInt32 :=
  if j = 19 then Single.one.bits else 0

variable (r : Record)

theorem words_ofRecord : (ofRecord r).words =
    [r.position.x.bits, r.position.y.bits, r.position.z.bits, 0,
      r.orientation.x.x.bits, r.orientation.x.y.bits, r.orientation.x.z.bits, 0,
      r.orientation.y.x.bits, r.orientation.y.y.bits, r.orientation.y.z.bits, 0,
      r.orientation.z.x.bits, r.orientation.z.y.bits, r.orientation.z.z.bits, 0,
      0, 0, 0, Single.one.bits, r.size.bits,
      r.material.emittance.x.bits, r.material.emittance.y.bits, r.material.emittance.z.bits, 0,
      r.material.reflectance.x.bits, r.material.reflectance.y.bits, r.material.reflectance.z.bits, 0,
      r.material.roughness.bits, r.material.opacity.bits,
      r.children[0], r.children[1], r.children[2], r.children[3], r.children[4], r.children[5], r.children[6],
      r.children[7], ofFlag r.isLeaf, ofFlag r.isEmpty, 0, 0, 0] := by
  have hchildren : r.children.toList = [r.children[0], r.children[1], r.children[2], r.children[3], r.children[4],
      r.children[5], r.children[6], r.children[7]] := by
    apply List.ext_getElem
    · simp
    · intro i hi hi'
      simp only [List.length_cons, List.length_nil] at hi'
      interval_cases i <;> rfl
  simp [words, ofRecord, hchildren, Vec4.ofVec3, Vec4.toList, Vec3.map, Vec3.toList, Vec3.fill, Single.zero]

theorem length_bytes : (ofRecord r).bytes.length = stride := by
  rw [bytes, length_flatMap_blocks (n := 4) (fun w => length_littleEndian _ _), words_ofRecord]
  rfl

section Reading

variable {n : GpuNode} {j : Nat}

theorem wordAt_bytes {w : UInt32} (hw : n.words[j]? = some w) : wordAt n.bytes j = w := by
  rw [wordAt, bytes, take_drop_flatMap_blocks (n := 4) (fun w => length_littleEndian _ _) hw,
    ofLittleEndian_littleEndian _ _ w.toNat_lt, UInt32.ofNat_toNat]

theorem singleAt_bytes {a : Single} (ha : n.words[j]? = some a.bits) : singleAt n.bytes j = a := by
  rw [singleAt, wordAt_bytes ha]

theorem vectorAt_bytes {v : Vec3 Single} (hv : (n.words.drop j).take 3 = v.toList.map Single.bits) :
    vectorAt n.bytes j = v := by
  have hget (i : Nat) (hi : i < 3) : n.words[j + i]? = (v.toList.map Single.bits)[i]? := by
    rw [← hv, List.getElem?_take_of_lt hi, List.getElem?_drop]
  rw [vectorAt, singleAt_bytes (j := j) (hget 0 (by decide)), singleAt_bytes (hget 1 (by decide)),
    singleAt_bytes (hget 2 (by decide))]

theorem flagAt_bytes {b : Bool} (hb : n.words[j]? = some (ofFlag b)) : decide (wordAt n.bytes j ≠ 0) = b := by
  rw [wordAt_bytes hb]
  cases b <;> rfl

end Reading

theorem words_fixed {j : Nat} (hj : j < 44) (hf : j ∉ fieldWords) : (ofRecord r).words[j]? = some (fixedWord j) := by
  have hfixed : j ∈ [3, 7, 11, 15, 16, 17, 18, 19, 24, 28, 41, 42, 43] := by
    revert j
    decide
  rw [words_ofRecord]
  fin_cases hfixed <;> rfl

theorem toRecord_bytes : toRecord (ofRecord r).bytes = r := by
  have hw := words_ofRecord r
  have hchildren : (Vector.ofFn fun k : Fin 8 => wordAt (ofRecord r).bytes (31 + k.val)) = r.children := by
    apply Vector.ext
    intro k hk
    rw [Vector.getElem_ofFn]
    apply wordAt_bytes
    rw [hw]
    interval_cases k <;> rfl
  rw [toRecord, hchildren, vectorAt_bytes (j := 0) (v := r.position) (by rw [hw]; rfl),
    vectorAt_bytes (j := 4) (v := r.orientation.x) (by rw [hw]; rfl),
    vectorAt_bytes (j := 8) (v := r.orientation.y) (by rw [hw]; rfl),
    vectorAt_bytes (j := 12) (v := r.orientation.z) (by rw [hw]; rfl),
    singleAt_bytes (j := 20) (a := r.size) (by rw [hw]; rfl),
    vectorAt_bytes (j := 21) (v := r.material.emittance) (by rw [hw]; rfl),
    vectorAt_bytes (j := 25) (v := r.material.reflectance) (by rw [hw]; rfl),
    singleAt_bytes (j := 29) (a := r.material.roughness) (by rw [hw]; rfl),
    singleAt_bytes (j := 30) (a := r.material.opacity) (by rw [hw]; rfl),
    flagAt_bytes (j := 39) (b := r.isLeaf) (by rw [hw]; rfl), flagAt_bytes (j := 40) (b := r.isEmpty) (by rw [hw]; rfl)]

end GpuNode

namespace Record

open GpuNode

variable {records : List Record} {i : Nat} {r : Record}

theorem length_gpuBytes (records : List Record) : (gpuBytes records).length = stride * records.length :=
  length_flatMap_blocks length_bytes records

theorem node_gpuBytes (hr : records[i]? = some r) :
    ((gpuBytes records).drop (stride * i)).take stride = (ofRecord r).bytes :=
  take_drop_flatMap_blocks length_bytes hr

theorem recordAt_gpuBytes (hr : records[i]? = some r) : recordAt (gpuBytes records) i = r := by
  rw [recordAt, node_gpuBytes hr, toRecord_bytes]

theorem fixed_gpuBytes (hr : records[i]? = some r) {j : Nat} (hj : j < 44) (hf : j ∉ fieldWords) :
    ((gpuBytes records).drop (stride * i + 4 * j)).take 4 = littleEndian (fixedWord j).toNat 4 := by
  have hword := take_drop_flatMap_blocks (f := fun w : UInt32 => littleEndian w.toNat 4) (n := 4)
    (fun w => length_littleEndian _ _) (words_fixed r hj hf)
  rw [← bytes, ← node_gpuBytes hr, List.drop_take, List.take_take, List.drop_drop] at hword
  have hle : 4 ≤ stride - 4 * j := by
    unfold stride
    omega
  rwa [Nat.min_eq_left hle] at hword

theorem gpuBytes_injective : Function.Injective gpuBytes := by
  intro records records' h
  have hlength : records.length = records'.length := by
    have := congrArg List.length h
    rw [length_gpuBytes, length_gpuBytes] at this
    exact Nat.eq_of_mul_eq_mul_left (by decide) this
  apply List.ext_getElem hlength
  intro i hi hi'
  rw [← recordAt_gpuBytes (List.getElem?_eq_getElem hi), ← recordAt_gpuBytes (List.getElem?_eq_getElem hi'), h]

end Record

/-- Every record stands in a node of its own and is read back from it, whatever its bits; the words of no field are
the same in all nodes. So two lists of records with the same bytes are the same list. -/
theorem gpuBytes_lossless (records : List Record) :
    (Record.gpuBytes records).length = 176 * records.length ∧
      (∀ (i : Nat) (r : Record), records[i]? = some r →
        ((Record.gpuBytes records).drop (176 * i)).take 176 = (GpuNode.ofRecord r).bytes ∧
          GpuNode.recordAt (Record.gpuBytes records) i = r ∧
          ∀ j < 44, j ∉ GpuNode.fieldWords → ((Record.gpuBytes records).drop (176 * i + 4 * j)).take 4 =
            littleEndian (if j = 19 then Single.one.bits.toNat else 0) 4) ∧
      ∀ (records' : List Record) (isPretty isPretty' : Bool),
        encodeRecords records.toArray .gpu isPretty = encodeRecords records'.toArray .gpu isPretty' ↔
          records = records' := by
  refine ⟨Record.length_gpuBytes records, ?_, ?_⟩
  · intro i r hr
    refine ⟨Record.node_gpuBytes hr, Record.recordAt_gpuBytes hr, fun j hj hf => ?_⟩
    have hfixed := Record.fixed_gpuBytes hr hj hf
    rwa [GpuNode.fixedWord, apply_ite UInt32.toNat] at hfixed
  · intro records' isPretty isPretty'
    exact Record.gpuBytes_injective.eq_iff

theorem gpuBytes_lossless_odd : ∃ records : List Record, ∃ r, records[1]? = some r ∧
    r.isLeaf = true ∧ r.isEmpty = true ∧ GpuNode.recordAt (Record.gpuBytes records) 1 = r ∧
      ((Record.gpuBytes records).drop (176 * 1 + 4 * 19)).take 4 = [0, 0, 0x80, 0x3f] := by
  let r : Record := ⟨.fill .nan, .fill (.fill ⟨0x7f800000⟩), ⟨0xff800000⟩, .ofLight (.fill .nan) (.fill .nan),
    Vector.replicate 8 0xffffffff, true, true⟩
  obtain ⟨-, hread, -⟩ := gpuBytes_lossless [.internal (.fill .one) 2 (Vector.replicate 8 3), r]
  obtain ⟨-, hr, hfixed⟩ := hread 1 r rfl
  exact ⟨_, r, rfl, rfl, rfl, hr, hfixed 19 (by decide) (by decide)⟩

end VoxelOctree
