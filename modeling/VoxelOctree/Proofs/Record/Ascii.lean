import VoxelOctree.Convert
import VoxelOctree.Proofs.Json.Layout
import VoxelOctree.Proofs.Json.Number

namespace VoxelOctree

namespace Utf8

variable {s t : List Char} {c : Char}

def Ascii (s : List Char) : Prop :=
  ∀ c ∈ s, c.toNat < 0x80

instance (s : List Char) : Decidable (Ascii s) :=
  List.decidableBAll (fun c : Char => c.toNat < 0x80) s

theorem ascii_nil : Ascii [] :=
  fun _ h => absurd h List.not_mem_nil

theorem ascii_cons : Ascii (c :: s) ↔ c.toNat < 0x80 ∧ Ascii s :=
  List.forall_mem_cons

theorem ascii_append : Ascii (s ++ t) ↔ Ascii s ∧ Ascii t :=
  List.forall_mem_append

theorem encodeChar_ascii (h : c.toNat < 0x80) : String.utf8EncodeChar c = [UInt8.ofNat c.toNat] := by
  have hle : c.val.toNat ≤ 127 := Nat.le_of_lt_succ h
  simp only [String.utf8EncodeChar, hle, ↓reduceIte]
  rfl

theorem pieces_ascii (h : c.toNat < 0x80) (bs : List UInt8) :
    pieces (UInt8.ofNat c.toNat :: bs) = some c :: pieces bs := by
  have hbyte : (UInt8.ofNat c.toNat).toNat = c.toNat := UInt8.toNat_ofNat_of_lt' (h.trans (by decide))
  have hfirst : first (UInt8.ofNat c.toNat) bs = (some c, 0) := by
    simp only [first, tails, hbyte, h, ↓reduceIte, matching, List.length_nil, List.take_zero, charOf, List.foldl_nil,
      Char.ofNat_toNat]
  rw [pieces, hfirst, List.drop_zero]

theorem lossy_encode (h : Ascii s) : lossy (encode s) = s := by
  induction s with
  | nil => rw [encode, List.flatMap_nil, lossy, pieces, List.map_nil]
  | cons c s ih =>
    obtain ⟨hc, hs⟩ := ascii_cons.mp h
    have hencode : encode (c :: s) = UInt8.ofNat c.toNat :: encode s := by
      rw [encode, List.flatMap_cons, encodeChar_ascii hc]
      rfl
    rw [lossy, hencode, pieces_ascii hc, List.map_cons]
    exact congrArg (c :: ·) (ih hs)

theorem ascii_of_digits (h : ∀ c ∈ s, c.isDigit = true) : Ascii s := by
  intro c hc
  have hdigit := h c hc
  rw [Char.isDigit, Bool.and_eq_true, decide_eq_true_eq, decide_eq_true_eq] at hdigit
  exact (UInt32.le_iff_toNat_le.mp hdigit.2).trans_lt (by decide)

theorem ascii_of_blank (h : Json.Blank s) : Ascii s := by
  intro c hc
  have hblank := h c hc
  rw [Json.isBlank, decide_eq_true_eq] at hblank
  rcases hblank with rfl | rfl | rfl | rfl <;> decide

end Utf8

open Utf8

theorem ascii_toDigits (n : Nat) : Ascii (Nat.toDigits 10 n) :=
  ascii_of_digits (isDigit_toDigits n)

namespace Decimal

theorem ascii_positional (d : Decimal) : Ascii d.positional := by
  rw [positional]
  split_ifs
  · simp only [ascii_append]
    refine ⟨⟨ascii_toDigits _, ?_⟩, by decide⟩
    intro c hc
    rw [List.eq_of_mem_replicate hc]
    decide
  · have hpadded : Ascii (padded d.digits (-d.exponent).toNat) := ascii_of_digits (isDigit_padded _ _)
    refine ascii_append.mpr ⟨fun c hc => hpadded c (List.mem_of_mem_take hc), ascii_cons.mpr ⟨by decide, ?_⟩⟩
    exact fun c hc => hpadded c (List.mem_of_mem_drop hc)

theorem ascii_scientific (d : Decimal) : Ascii d.scientific := by
  have hdigits := ascii_toDigits d.digits
  unfold scientific
  simp only [ascii_append]
  refine ⟨⟨?_, ?_⟩, ascii_toDigits _⟩
  · split
    next first second rest hcs =>
      rw [hcs, ascii_cons, ascii_cons] at hdigits
      obtain ⟨hfirst, hsecond, hrest⟩ := hdigits
      exact ascii_cons.mpr ⟨hfirst, ascii_cons.mpr ⟨by decide, ascii_cons.mpr ⟨hsecond, hrest⟩⟩⟩
    next => exact hdigits
  · split_ifs <;> decide

end Decimal

theorem Single.ascii_json (a : Single) : Ascii a.json := by
  have hwrite : Ascii (Record.numberStyle.write a.shortest) := by
    rw [DecimalStyle.write]
    split_ifs
    · exact a.shortest.ascii_positional
    · exact a.shortest.ascii_scientific
  rw [json, text]
  split_ifs
  · exact ascii_cons.mpr ⟨by decide, hwrite⟩
  · exact hwrite
  · decide

namespace Layout

variable {l : Layout} {depth : Nat}

def AsciiItem (item : Item) : Prop :=
  ∀ depth, Ascii (item depth)

theorem ascii_more (hl : l.IsBlank) {body : List Item} (h : ∀ item ∈ body, AsciiItem item) :
    Ascii (l.more depth body) := by
  intro c hc
  obtain ⟨item, hitem, hc⟩ := List.mem_flatMap.mp hc
  have hitem : Ascii (',' :: (l.gap depth ++ item depth)) :=
    ascii_cons.mpr ⟨by decide, ascii_append.mpr ⟨ascii_of_blank (hl.gap depth), h item hitem depth⟩⟩
  exact hitem c hc

theorem ascii_enclosed (hl : l.IsBlank) {opening closing : Char} (ho : opening.toNat < 0x80) (hc : closing.toNat < 0x80)
    {body : List Item} (h : ∀ item ∈ body, AsciiItem item) : AsciiItem (l.enclosed opening closing body) := by
  intro depth
  cases body with
  | nil => exact ascii_cons.mpr ⟨ho, ascii_cons.mpr ⟨hc, ascii_nil⟩⟩
  | cons item body =>
    have happend := l.enclosed_append opening closing item body depth []
    rw [List.append_nil] at happend
    obtain ⟨hitem, hbody⟩ := List.forall_mem_cons.mp h
    simp only [happend, ascii_cons, ascii_append]
    exact ⟨ho, ascii_of_blank (hl.gap _), hitem _, ascii_more hl hbody, ascii_of_blank (hl.gap _), hc, ascii_nil⟩

theorem ascii_array {α : Type} (hl : l.IsBlank) {f : α → Item} (h : ∀ a, AsciiItem (f a)) (as : List α) :
    AsciiItem (l.array (as.map f)) := by
  rw [array]
  apply ascii_enclosed hl (by decide) (by decide)
  intro item hitem
  obtain ⟨a, -, rfl⟩ := List.mem_map.mp hitem
  exact h a

theorem ascii_object (hl : l.IsBlank) {fields : List (List Char × Item)} (h : ∀ f ∈ fields, Ascii f.1 ∧ AsciiItem f.2) :
    AsciiItem (l.object fields) := by
  rw [object]
  apply ascii_enclosed hl (by decide) (by decide)
  intro item hitem depth
  obtain ⟨f, hf, rfl⟩ := List.mem_map.mp hitem
  obtain ⟨hname, hvalue⟩ := h f hf
  simp only [field, ascii_cons, ascii_append]
  exact ⟨by decide, ⟨⟨hname, by decide, by decide, ascii_nil⟩, ascii_of_blank hl.space⟩, hvalue depth⟩

theorem ascii_number (a : Single) : AsciiItem (number a) :=
  fun _ => a.ascii_json

theorem ascii_natural (n : Nat) : AsciiItem (natural n) :=
  fun _ => ascii_toDigits n

theorem ascii_vector (hl : l.IsBlank) (v : Vec3 Single) : AsciiItem (l.vector v) :=
  ascii_array hl ascii_number v.toList

theorem ascii_material (hl : l.IsBlank) (m : Material) : AsciiItem (l.material m) := by
  apply ascii_object hl
  intro field hfield
  obtain ⟨f, -, rfl⟩ := List.mem_map.mp hfield
  have hname : Ascii f.name := by
    cases f <;> decide
  refine ⟨hname, ?_⟩
  cases f with
  | emittance => exact ascii_vector hl m.emittance
  | reflectance => exact ascii_vector hl m.reflectance
  | roughness => exact ascii_number m.roughness
  | opacity => exact ascii_number m.opacity

theorem ascii_record (hl : l.IsBlank) (r : Record) : AsciiItem (l.record r) := by
  apply ascii_object hl
  intro field hfield
  obtain ⟨f, -, rfl⟩ := List.mem_map.mp hfield
  have hname : Ascii f.name := by
    cases f <;> decide
  refine ⟨hname, ?_⟩
  cases f with
  | position => exact ascii_vector hl r.position
  | orientation => exact ascii_array hl (ascii_vector hl) r.orientation.toList
  | size => exact ascii_number r.size
  | material => exact ascii_material hl r.material
  | children => exact ascii_array hl (fun c => ascii_natural c.toNat) r.children.toList
  | isLeaf => exact ascii_natural _
  | isEmpty => exact ascii_natural _

end Layout

theorem lossy_encodeRecords (records : Array Record) (isPretty : Bool) :
    lossy (encodeRecords records .json isPretty) = (Layout.choose isPretty).records records.toList := by
  have hl := Layout.isBlank_choose isPretty
  exact lossy_encode (Layout.ascii_array hl (Layout.ascii_record hl) records.toList 0)

end VoxelOctree
