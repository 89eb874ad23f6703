import Mathlib.Data.List.Forall2
import VoxelOctree.Proofs.Record.Ascii

namespace VoxelOctree

open Json Json.Numeral

theorem Single.head_text (a : Single) (style : DecimalStyle) :
    ∃ c s, a.text style = c :: s ∧ (c = '-' ∨ c.isDigit = true) := by
  rw [text]
  split_ifs
  · exact ⟨'-', _, rfl, .inl rfl⟩
  · obtain ⟨c, s, hwrite, hc⟩ := Decimal.head_write style a.shortest
    exact ⟨c, s, hwrite, .inr hc⟩

theorem numeral_head {c : Char} (hc : c = '-' ∨ c.isDigit = true) : isBlank c = false ∧ c ≠ ']' := by
  constructor
  · rw [isBlank, decide_eq_false_iff_not]
    rintro (rfl | rfl | rfl | rfl) <;> exact absurd hc (by decide)
  · rintro rfl
    exact absurd hc (by decide)

theorem readNumeral_append {blank s : List Char} {c : Char} (hblank : Blank blank) (hc : c = '-' ∨ c.isDigit = true) :
    readNumeral (blank ++ (c :: s)) = Numeral.read (c :: s) := by
  rw [readNumeral, skipBlank_append hblank, skipBlank_cons (numeral_head hc).1]
  simp only [hc, ↓reduceIte]

def Material.numbers (m : Material) : List Single :=
  m.emittance.toList ++ m.reflectance.toList ++ [m.roughness, m.opacity]

def Record.numbers (r : Record) : List Single :=
  r.position.toList ++ r.orientation.toList.flatMap Vec3.toList ++ r.size :: r.material.numbers

def Record.isFinite (r : Record) : Bool :=
  r.numbers.all Single.isFinite

theorem MaterialField.plain_name (f : MaterialField) : Plain f.name := by
  cases f <;> decide

theorem RecordField.plain_name (f : RecordField) : Plain f.name := by
  cases f <;> decide

theorem MaterialField.find_name (f : MaterialField) : all.find? (fun g => decide (g.name = f.name)) = some f := by
  cases f <;> decide

theorem RecordField.find_name (f : RecordField) : all.find? (fun g => decide (g.name = f.name)) = some f := by
  cases f <;> decide

theorem Json.MaterialDraft.member_name (f : MaterialField) (d : MaterialDraft) : member f.name d = match f with
    | .emittance => .into d.emittance (readVec3 readSingle) fun a => { d with emittance := some a }
    | .reflectance => .into d.reflectance (readVec3 readSingle) fun a => { d with reflectance := some a }
    | .roughness => .into d.roughness readSingle fun a => { d with roughness := some a }
    | .opacity => .into d.opacity readSingle fun a => { d with opacity := some a } := by
  rw [member, MaterialField.find_name]
  cases f <;> rfl

theorem Json.RecordDraft.member_name (f : RecordField) (d : RecordDraft) : member f.name d = match f with
    | .position => .into d.position (readVec3 readSingle) fun a => { d with position := some a }
    | .orientation => .into d.orientation (readVec3 (readVec3 readSingle)) fun a => { d with orientation := some a }
    | .size => .into d.size readSingle fun a => { d with size := some a }
    | .material => .into d.material readMaterial fun a => { d with material := some a }
    | .children => .into d.children readLinks fun a => { d with children := some a }
    | .isLeaf => .into d.isLeaf readFlag fun a => { d with isLeaf := some a }
    | .isEmpty => .into d.isEmpty readFlag fun a => { d with isEmpty := some a } := by
  rw [member, RecordField.find_name]
  cases f <;> rfl

namespace Layout

variable {l : Layout}

theorem reads_number (a : Single) : Reads readSingle (number a) a.isFinite a := by
  rw [number, Single.json]
  cases hfinite : a.isFinite with
  | false =>
    refine ⟨fun depth => ⟨'n', _, rfl, by decide, by decide⟩, ?_⟩
    intro depth blank rest hblank _
    simp only [Bool.false_eq_true, ↓reduceIte, atom, List.cons_append, List.nil_append]
    rw [readSingle, readNumeral, skipBlank_append hblank, skipBlank_cons (by decide)]
    rfl
  | true =>
    obtain ⟨c, s, htext, hc⟩ := a.head_text Record.numberStyle
    refine ⟨fun depth => ⟨c, s, htext, numeral_head hc⟩, ?_⟩
    intro depth blank rest hblank hrest
    have hread := Single.read_text hfinite hrest
    have hsingle := Single.toSingle_ofDecimal hfinite a.shown_eq (Single.digits_shown_le hfinite)
    simp only [↓reduceIte, atom]
    rw [htext, List.cons_append] at hread ⊢
    rw [readSingle, readNumeral_append hblank hc, hread]
    show Except.ok (Double.toSingle a.negative _, rest) = Except.ok (a, rest)
    rw [hsingle]

theorem reads_word (w : UInt32) : Reads readWord (natural w.toNat) true w := by
  obtain ⟨c, s, htext, hc⟩ := exists_toDigits w.toNat
  refine ⟨fun depth => ⟨c, s, htext, numeral_head (.inr hc)⟩, ?_⟩
  intro depth blank rest hblank hrest
  have hread := read_toDigits (w.toNat_lt.trans (by decide)) hrest
  simp only [natural, atom]
  rw [htext, List.cons_append] at hread ⊢
  rw [readWord, readNumeral_append hblank (.inr hc), hread]
  simp only [bind_ok, show w.toNat < UInt32.size from w.toNat_lt, ↓reduceIte, UInt32.ofNat_toNat]
  rfl

theorem reads_flag (b : Bool) : Reads readFlag (flag b) true b := by
  have hword : flag b = natural (if b then 1 else 0 : UInt32).toNat := by
    cases b <;> rfl
  have h := reads_word (if b then 1 else 0)
  rw [hword]
  refine ⟨h.head, ?_⟩
  intro depth blank rest hblank hrest
  rw [readFlag, h.read_append depth hblank hrest]
  cases b <;> rfl

theorem reads_vector (hl : l.IsBlank) (v : Vec3 Single) :
    Reads (readVec3 readSingle) (l.vector v) (v.toList.all Single.isFinite) v :=
  reads_vec3 hl reads_number v

theorem reads_links (hl : l.IsBlank) (v : Vector UInt32 8) :
    Reads readLinks (l.array (v.toList.map fun c => natural c.toNat)) true v := by
  obtain ⟨⟨links⟩, hsize⟩ := v
  match links, hsize with
  | [a, b, c, d, e, f, g, h], hsize =>
    refine ⟨fun depth => ⟨'[', _, rfl, by decide, by decide⟩, ?_⟩
    intro depth blank rest hblank _
    have hend := ended_close hl depth rest
    simp only [Vector.toList_mk, List.map_cons, List.map_nil]
    rw [array, enclosed_append, readLinks, openArray_append hblank]
    simp only [bind_ok, bind_element_first _ _ hl (reads_word a) hend, bind_element_next _ _ hl (reads_word b) hend,
      bind_element_next _ _ hl (reads_word c) hend, bind_element_next _ _ hl (reads_word d) hend,
      bind_element_next _ _ hl (reads_word e) hend, bind_element_next _ _ hl (reads_word f) hend,
      bind_element_next _ _ hl (reads_word g) hend, bind_element_next _ _ hl (reads_word h) hend, more_nil,
      closeArray_append (hl.gap depth), ↓reduceIte]
    rfl

theorem reads_material (hl : l.IsBlank) (m : Material) :
    Reads readMaterial (l.material m) (m.numbers.all Single.isFinite) m := by
  have hfinite : m.numbers.all Single.isFinite = (m.emittance.toList.all Single.isFinite &&
      (m.reflectance.toList.all Single.isFinite && (m.roughness.isFinite && (m.opacity.isFinite && true)))) := by
    simp only [Material.numbers, List.all_append, List.all_cons, List.all_nil, Bool.and_assoc]
  rw [hfinite]
  refine Fills.reads_object (?_ : Fills MaterialDraft.member {} _ _
    ⟨some m.emittance, some m.reflectance, some m.roughness, some m.opacity⟩) rfl hl
  apply Fills.cons (MaterialField.plain_name .emittance) (MaterialDraft.member_name .emittance _)
    (reads_vector hl m.emittance)
  apply Fills.cons (MaterialField.plain_name .reflectance) (MaterialDraft.member_name .reflectance _)
    (reads_vector hl m.reflectance)
  apply Fills.cons (MaterialField.plain_name .roughness) (MaterialDraft.member_name .roughness _)
    (reads_number m.roughness)
  apply Fills.cons (MaterialField.plain_name .opacity) (MaterialDraft.member_name .opacity _)
    (reads_number m.opacity)
  exact Fills.nil _

theorem reads_record (hl : l.IsBlank) (r : Record) : Reads readRecord (l.record r) r.isFinite r := by
  have hfinite : r.isFinite = (r.position.toList.all Single.isFinite &&
      (r.orientation.toList.all (fun v => v.toList.all Single.isFinite) && (r.size.isFinite &&
        (r.material.numbers.all Single.isFinite && (true && (true && (true && true))))))) := by
    simp only [Record.isFinite, Record.numbers, List.all_append, List.all_cons, List.all_flatMap, Bool.and_assoc,
      Bool.and_true]
  rw [hfinite]
  refine Fills.reads_object (?_ : Fills RecordDraft.member {} _ _ ⟨some r.position, some r.orientation, some r.size,
    some r.material, some r.children, some r.isLeaf, some r.isEmpty⟩) rfl hl
  apply Fills.cons (RecordField.plain_name .position) (RecordDraft.member_name .position _)
    (reads_vector hl r.position)
  apply Fills.cons (RecordField.plain_name .orientation) (RecordDraft.member_name .orientation _)
    (reads_vec3 hl (reads_vector hl) r.orientation)
  apply Fills.cons (RecordField.plain_name .size) (RecordDraft.member_name .size _)
    (reads_number r.size)
  apply Fills.cons (RecordField.plain_name .material) (RecordDraft.member_name .material _)
    (reads_material hl r.material)
  apply Fills.cons (RecordField.plain_name .children) (RecordDraft.member_name .children _)
    (reads_links hl r.children)
  apply Fills.cons (RecordField.plain_name .isLeaf) (RecordDraft.member_name .isLeaf _)
    (reads_flag r.isLeaf)
  apply Fills.cons (RecordField.plain_name .isEmpty) (RecordDraft.member_name .isEmpty _)
    (reads_flag r.isEmpty)
  exact Fills.nil _

theorem decodeRecords_records (hl : l.IsBlank) (rs : List Record) :
    decodeRecords (l.records rs) = readBack (rs.all Record.isFinite) rs := by
  obtain ⟨s, htext, hread⟩ : ∃ s, l.array (rs.map l.record) 0 ++ [] = '[' :: s ∧ _ :=
    readElements_array (g := id) hl (reads_record hl) rs
  have hopen : openArray ('[' :: s) = .ok s := rfl
  rw [List.append_nil] at htext
  rw [decodeRecords, records, htext, hopen]
  simp only [bind_ok, hread, bind_readBack, List.map_id]
  cases rs.all Record.isFinite <;> rfl

end Layout

theorem decodeRecords_encodeRecords (records : Array Record) (isPretty : Bool) :
    decodeRecords (Utf8.lossy (encodeRecords records .json isPretty)) =
      readBack (records.toList.all Record.isFinite) records.toList := by
  rw [lossy_encodeRecords, Layout.decodeRecords_records (Layout.isBlank_choose isPretty)]

theorem all_isFinite_iff {records : Array Record} : records.toList.all Record.isFinite = true ↔
    ∀ r ∈ records, ∀ a ∈ r.numbers, a.isFinite = true := by
  simp only [List.all_eq_true, Array.mem_toList_iff, Record.isFinite]

/-- The second record has the links and flags of the first, and each of its numbers is what the text of the number in
the same place is read as. -/
structure Record.ReadAs (r r' : Record) : Prop where
  numbers : List.Forall₂ (fun a b => readSingle a.json = .ok (b, [])) r.numbers r'.numbers
  children : r'.children = r.children
  isLeaf : r'.isLeaf = r.isLeaf
  isEmpty : r'.isEmpty = r.isEmpty

theorem Record.readAs_self {r : Record} (h : ∀ a ∈ r.numbers, a.isFinite = true) : r.ReadAs r := by
  refine ⟨List.forall₂_same.mpr fun a ha => ?_, rfl, rfl, rfl⟩
  have hended : Ended [] := fun _ h => absurd h (Option.not_mem_none _)
  have hread : readSingle (Layout.number a 0 ++ []) = _ := (Layout.reads_number a).read_item hended
  rwa [List.append_nil, h a ha] at hread

/-- A file of records is read back if and only if all numbers are finite; the layout makes no difference. -/
theorem decodeRecords_outcome (records : Array Record) (isPretty : Bool) :
    ((∃ rs, decodeRecords (Utf8.lossy (encodeRecords records .json isPretty)) = .ok rs) ↔
      ∀ r ∈ records, ∀ a ∈ r.numbers, a.isFinite = true) ∧
    (∀ r ∈ records, ∀ a ∈ r.numbers, a.isFinite = false → a.json = ['n', 'u', 'l', 'l'] ∧
      decodeRecords (Utf8.lossy (encodeRecords records .json isPretty)) = .error .mismatch) ∧
    ∀ rs, decodeRecords (Utf8.lossy (encodeRecords records .json isPretty)) = .ok rs →
      decodeRecords (Utf8.lossy (encodeRecords records .json (!isPretty))) = .ok rs ∧
        List.Forall₂ Record.ReadAs records.toList rs := by
  simp only [decodeRecords_encodeRecords]
  rw [← all_isFinite_iff]
  cases hall : records.toList.all Record.isFinite with
  | true =>
    refine ⟨⟨fun _ => rfl, fun _ => ⟨_, rfl⟩⟩, ?_, ?_⟩
    · intro r hr a ha hinf
      have := all_isFinite_iff.mp hall r hr a ha
      rw [hinf] at this
      exact absurd this Bool.false_ne_true
    · rintro rs ⟨⟩
      exact ⟨rfl, List.forall₂_same.mpr fun r hr =>
        Record.readAs_self (all_isFinite_iff.mp hall r (Array.mem_toList_iff.mp hr))⟩
  | false =>
    refine ⟨⟨?_, fun h => absurd h Bool.false_ne_true⟩, ?_, ?_⟩
    · rintro ⟨rs, ⟨⟩⟩
    · intro r hr a ha hinf
      rw [Single.json, hinf]
      exact ⟨rfl, rfl⟩
    · rintro rs ⟨⟩

theorem decodeRecords_outcome_spoilt : ∃ good bad : Record, bad.size = .nan ∧
    (∃ rs, decodeRecords (Utf8.lossy (encodeRecords #[good] .json true)) = .ok rs) ∧
    decodeRecords (Utf8.lossy (encodeRecords #[good, bad] .json false)) = .error .mismatch := by
  let good : Record := ⟨.fill .one, .fill (.fill .zero), ⟨0x7f7fffff⟩, .ofLight (.fill .one) (.fill ⟨0x80000000⟩),
    Vector.replicate 8 0xffffffff, true, true⟩
  let bad : Record := { good with size := .nan }
  refine ⟨good, bad, rfl, (decodeRecords_outcome #[good] true).1.mpr ?_, ?_⟩
  · decide
  · have hbad : bad ∈ #[good, bad] := by simp
    exact ((decodeRecords_outcome #[good, bad] false).2.1 bad hbad .nan (by decide) (by decide)).2

/-- A file of finite records is read back bit by bit. -/
theorem decodeRecords_lossless (records : Array Record) (isPretty : Bool)
    (h : ∀ r ∈ records, ∀ a ∈ r.numbers, a.isFinite = true) :
    decodeRecords (Utf8.lossy (encodeRecords records .json isPretty)) = .ok records.toList := by
  rw [decodeRecords_encodeRecords, all_isFinite_iff.mpr h]
  rfl

theorem decodeRecords_lossless_extremes : ∃ r : Record,
    r.position = ⟨⟨0x15ae43fd⟩, ⟨0x80000000⟩, ⟨0x00000001⟩⟩ ∧ r.size = ⟨0x7f7fffff⟩ ∧
    (∀ a ∈ r.numbers, a.isFinite = true) ∧
    decodeRecords (Utf8.lossy (encodeRecords #[r] .json true)) = .ok [r] := by
  let r : Record := ⟨⟨⟨0x15ae43fd⟩, ⟨0x80000000⟩, ⟨0x00000001⟩⟩, .fill (.fill ⟨0x007fffff⟩), ⟨0x7f7fffff⟩,
    .ofLight (.fill ⟨0x4b800001⟩) (.fill ⟨0xff7fffff⟩), Vector.replicate 8 0xffffffff, true, false⟩
  have hfinite : ∀ a ∈ r.numbers, a.isFinite = true := by decide
  refine ⟨r, rfl, rfl, hfinite, decodeRecords_lossless #[r] true ?_⟩
  intro r' hr'
  rw [List.mem_singleton.mp (Array.mem_toList_iff.mpr hr')]
  exact hfinite

end VoxelOctree
