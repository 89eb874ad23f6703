import VoxelOctree.Proofs.Record.RoundTrip

namespace VoxelOctree

open Layout (Item)

namespace Json

namespace Numeral
variable {s rest : List Char} {isNegative : Bool} {significand : Nat} {exponent : Int} {n : Numeral}

theorem rest_of_scaled {r : Except Cause Numeral}
    (h : (do return (← r, s) : Except Cause (Numeral × List Char)) = .ok (n, rest)) : s = rest := by
  cases r <;> cases h
  rfl

theorem skipDigits_of_readPower {down : Bool} (h : readPower isNegative down significand exponent s = .ok (n, rest)) :
    skipDigits s = .ok rest := by
  simp only [readPower] at h
  have hrest : s.dropWhile Char.isDigit = rest := by
    split at h
    · cases h
    · split at h
      · split at h <;> cases h
        rfl
      · exact rest_of_scaled h
  rw [skipDigits, ← hrest]
  split_ifs at h ⊢
  · rfl
  · rfl
  · rfl

theorem skipExponent_of_readExponent {c : Char} (hc : isExponentMark c = true)
    (h : readExponent isNegative significand exponent s = .ok (n, rest)) : skipExponent (c :: s) = .ok rest := by
  simp only [skipExponent, hc, ↓reduceIte]
  cases s with
  | nil => cases h
  | cons d s =>
    unfold readExponent at h
    by_cases hplus : d = '+'
    · simp only [hplus, ↓reduceIte, true_or] at h ⊢
      exact skipDigits_of_readPower h
    · by_cases hminus : d = '-'
      · simp only [hminus, ↓reduceIte, or_true] at h ⊢
        exact skipDigits_of_readPower h
      · simp only [hplus, hminus, ↓reduceIte, or_self] at h ⊢
        exact skipDigits_of_readPower h

theorem skipExponent_of_readScaled (h : readScaled isNegative significand exponent s = .ok (n, rest)) :
    skipExponent s = .ok rest := by
  cases s with
  | nil =>
    obtain rfl := rest_of_scaled h
    rfl
  | cons c s =>
    unfold readScaled at h
    cases hc : isExponentMark c with
    | true =>
      simp only [hc, ↓reduceIte] at h
      exact skipExponent_of_readExponent hc h
    | false =>
      simp only [hc, Bool.false_eq_true, ↓reduceIte] at h
      obtain rfl := rest_of_scaled h
      simp only [skipExponent, hc, Bool.false_eq_true, ↓reduceIte]

theorem skip_of_readFraction (h : readFraction isNegative significand exponent s = .ok (n, rest)) :
    (skipDigits s >>= skipExponent) = .ok rest := by
  simp only [readFraction] at h
  rw [skipDigits]
  split_ifs at h ⊢
  exact skipExponent_of_readScaled h

def skipUnsigned (s : List Char) : Except Cause (List Char) := do
  match s.takeWhile Char.isDigit with
  | c :: _ :: _ => if c = '0' then .error .malformed
  | _ => pure ()
  match ← skipDigits s with
  | c :: rest => if c = '.' then skipExponent (← skipDigits rest) else skipExponent (c :: rest)
  | [] => .ok []

theorem skip_cons (c : Char) (s : List Char) :
    skip (c :: s) = if c = '-' then skipUnsigned s else skipUnsigned (c :: s) := by
  by_cases hc : c = '-'
  · simp only [skip, hc, ↓reduceIte]
    rfl
  · simp only [skip, hc, ↓reduceIte]
    rfl

theorem skipUnsigned_eq {c : Char} {more : List Char} (hdigits : s.takeWhile Char.isDigit = c :: more)
    (hzero : ¬ (c = '0' ∧ (!more.isEmpty) = true)) : skipUnsigned s =
      match s.dropWhile Char.isDigit with
      | d :: rest => if d = '.' then skipDigits rest >>= skipExponent else skipExponent (d :: rest)
      | [] => .ok [] := by
  rw [skipUnsigned, skipDigits, hdigits]
  cases more with
  | nil => rfl
  | cons next more =>
    have hc : c ≠ '0' := fun hc => hzero ⟨hc, rfl⟩
    simp only [hc, ↓reduceIte]
    rfl

theorem skipUnsigned_of_readUnsigned (h : readUnsigned isNegative s = .ok (n, rest)) : skipUnsigned s = .ok rest := by
  simp only [readUnsigned] at h
  cases hdigits : s.takeWhile Char.isDigit with
  | nil =>
    rw [hdigits] at h
    cases h
  | cons c more =>
    simp only [hdigits] at h
    have hzero : ¬ (c = '0' ∧ (!more.isEmpty) = true) := by
      intro hz
      rw [if_pos hz] at h
      cases h
    rw [if_neg hzero] at h
    rw [skipUnsigned_eq hdigits hzero]
    cases hrest : s.dropWhile Char.isDigit with
    | nil =>
      simp only [hrest] at h
      split_ifs at h
      · cases h
        rfl
      · exact skipExponent_of_readScaled h
    | cons d rest' =>
      simp only [hrest] at h
      by_cases hpoint : d = '.'
      · simp only [hpoint, ↓reduceIte] at h ⊢
        exact skip_of_readFraction h
      · simp only [hpoint, ↓reduceIte] at h ⊢
        split_ifs at h with hend
        · cases h
          have hmark : isExponentMark d = false := by simpa using hend.2
          simp only [skipExponent, hmark, Bool.false_eq_true, ↓reduceIte]
        · exact skipExponent_of_readScaled h

theorem skip_of_read (h : read s = .ok (n, rest)) : skip s = .ok rest := by
  cases s with
  | nil => cases h
  | cons c s =>
    rw [skip_cons]
    simp only [read] at h
    split_ifs at h ⊢
    · exact skipUnsigned_of_readUnsigned h
    · exact skipUnsigned_of_readUnsigned h

end Numeral

open Numeral (Ended Leading)

def Bracket.opening : Bracket → Char
  | array => '['
  | object => '\x7b'

theorem Bracket.isBlank_closing (b : Bracket) : isBlank b.closing = false := by
  cases b <;> rfl

variable {l : Layout} {item : Item} {b : Bracket} {blank rest s : List Char} {c : Char}

theorem skipBlank_blank_cons (hblank : Blank blank) (hc : isBlank c = false) (s : List Char) :
    skipBlank (blank ++ c :: s) = c :: s := by
  rw [skipBlank_append hblank, skipBlank_cons hc]

/-- The item is passed over, in no more steps than it has characters. -/
structure Skips (item : Item) : Prop where
  head (depth : Nat) : ∃ c s, item depth = c :: s ∧ isBlank c = false ∧ c ≠ ']'
  skip (depth : Nat) : ∃ cost ≤ (item depth).length, ∀ (count : Nat) (brackets : List Bracket) (blank rest : List Char),
    Blank blank → Ended rest →
      skipSteps (count + cost) .value brackets (blank ++ (item depth ++ rest)) = skipSteps count .after brackets rest

structure SkipsIn (b : Bracket) (item : Item) : Prop where
  head (depth : Nat) : ∃ c s, item depth = c :: s ∧ isBlank c = false ∧ c ≠ b.closing
  skip (depth : Nat) : ∃ cost ≤ (item depth).length, ∀ (count : Nat) (brackets : List Bracket) (blank rest : List Char),
    Blank blank → Ended rest →
      (b.enter (blank ++ (item depth ++ rest)) >>= skipSteps (count + cost) .value (b :: brackets)) =
        skipSteps count .after (b :: brackets) rest

theorem Skips.inArray (h : Skips item) : SkipsIn .array item :=
  ⟨h.head, fun depth => by
    obtain ⟨cost, hcost, hskip⟩ := h.skip depth
    exact ⟨cost, hcost, fun count brackets => hskip count (.array :: brackets)⟩⟩

theorem skipsIn_field (hl : l.IsBlank) {name : List Char} (hname : Plain name) (h : Skips item) :
    SkipsIn .object (l.field name item) := by
  refine ⟨fun depth => ⟨'"', _, rfl, by decide, by decide⟩, fun depth => ?_⟩
  obtain ⟨cost, hcost, hskip⟩ := h.skip depth
  refine ⟨cost, ?_, fun count brackets blank rest hblank hrest => ?_⟩
  · simp only [Layout.field, List.length_cons, List.length_append]
    omega
  · rw [field_append, Bracket.enter, skipName, skipBlank_blank_cons hblank (by decide)]
    simp only [↓reduceIte, quoted_skip hname, bind_ok, colon_cons]
    exact hskip count _ _ _ hl.space hrest

variable {count depth : Nat} {brackets : List Bracket} {body : List Item}

theorem skipScalar_opening (b : Bracket) (s : List Char) : skipScalar (b.opening :: s) = .ok none := by
  cases b <;> rfl

theorem skipSteps_scalar (hblank : Blank blank) (hc : isBlank c = false)
    (hskip : skipScalar (c :: s) = .ok (some rest)) :
    skipSteps (count + 1) .value brackets (blank ++ c :: s) = skipSteps count .after brackets rest := by
  rw [skipSteps, skipBlank_blank_cons hblank hc, hskip]
  rfl

theorem skipSteps_open (hblank : Blank blank) {gap : List Char} (hgap : Blank gap) (hc : isBlank c = false) :
    skipSteps (count + 1) .value brackets (blank ++ b.opening :: (gap ++ c :: s)) =
      if c = b.closing then skipSteps count .after brackets s
      else b.enter (c :: s) >>= skipSteps count .value (b :: brackets) := by
  have hopening : isBlank b.opening = false := by cases b <;> rfl
  rw [skipSteps, skipBlank_blank_cons hblank hopening, skipScalar_opening]
  simp only [bind_ok, List.tail_cons, skipBlank_blank_cons hgap hc, List.head?_cons]
  cases b <;> rfl

theorem skipSteps_comma : skipSteps (count + 1) .after (b :: brackets) (',' :: s) =
    b.enter s >>= skipSteps count .value (b :: brackets) := by
  rw [skipSteps, skipBlank_cons (by decide)]
  rfl

theorem skipSteps_close (hl : l.IsBlank) : skipSteps (count + 1) .after (b :: brackets)
    (l.gap depth ++ b.closing :: rest) = skipSteps count .after brackets rest := by
  rw [skipSteps, skipBlank_blank_cons (hl.gap depth) b.isBlank_closing]
  cases b <;> rfl

theorem ended_closing (hl : l.IsBlank) (b : Bracket) (depth : Nat) (rest : List Char) :
    Ended (l.gap depth ++ b.closing :: rest) := by
  cases b with
  | array => exact Layout.ended_close hl depth rest
  | object => exact ended_brace hl depth rest

-- Each of the items behind the first takes one step more than itself, for its comma.
theorem skipSteps_more (hl : l.IsBlank) (depth : Nat) (h : ∀ item ∈ body, SkipsIn b item) :
    ∃ cost ≤ (l.more (depth + 1) body).length, ∀ (count : Nat) (brackets : List Bracket) (rest : List Char),
      skipSteps (count + 1 + cost) .after (b :: brackets)
        (l.more (depth + 1) body ++ (l.gap depth ++ b.closing :: rest)) = skipSteps count .after brackets rest := by
  induction body with
  | nil => exact ⟨0, Nat.zero_le _, fun count brackets rest => skipSteps_close hl⟩
  | cons item body ih =>
    obtain ⟨hitem, hbody⟩ := List.forall_mem_cons.mp h
    obtain ⟨own, hown, hskip⟩ := hitem.skip (depth + 1)
    obtain ⟨others, hothers, hmore⟩ := ih hbody
    refine ⟨others + own + 1, ?_, fun count brackets rest => ?_⟩
    · have hlength := congrArg List.length (l.more_cons (depth + 1) item body [])
      simp only [List.append_nil, List.length_cons, List.length_append] at hlength
      omega
    · have hend := l.ended_more (depth + 1) body (ended_closing hl b depth rest)
      rw [Layout.more_cons, ← Nat.add_assoc, ← Nat.add_assoc, skipSteps_comma,
        hskip _ _ _ _ (hl.gap (depth + 1)) hend, hmore]

theorem skips_enclosed (hl : l.IsBlank) (h : ∀ item ∈ body, SkipsIn b item) :
    Skips (l.enclosed b.opening b.closing body) := by
  refine ⟨fun depth => ?_, fun depth => ?_⟩
  · cases body <;> exact ⟨b.opening, _, rfl, by cases b <;> rfl, by cases b <;> decide⟩
  cases body with
  | nil =>
    refine ⟨1, Nat.le_add_left 1 1, fun count brackets blank rest hblank _ => ?_⟩
    have hopen : skipSteps (count + 1) .value brackets (blank ++ b.opening :: ([] ++ b.closing :: rest)) = _ :=
      skipSteps_open hblank blank_nil b.isBlank_closing
    rwa [if_pos rfl] at hopen
  | cons item body =>
    obtain ⟨hitem, hbody⟩ := List.forall_mem_cons.mp h
    obtain ⟨own, hown, hskip⟩ := hitem.skip (depth + 1)
    obtain ⟨others, hothers, hmore⟩ := skipSteps_more hl depth hbody
    refine ⟨1 + others + own + 1, ?_, fun count brackets blank rest hblank _ => ?_⟩
    · have hlength := congrArg List.length (l.enclosed_append b.opening b.closing item body depth [])
      simp only [List.append_nil, List.length_cons, List.length_append] at hlength
      omega
    · have hend := l.ended_more (depth + 1) body (ended_closing hl b depth rest)
      obtain ⟨c, s, htext, hc, hclose⟩ := hitem.head (depth + 1)
      have hparts := hskip (count + (1 + others)) brackets [] _ blank_nil hend
      rw [List.nil_append, htext, List.cons_append] at hparts
      rw [Layout.enclosed_append, htext, List.cons_append, ← Nat.add_assoc, skipSteps_open hblank (hl.gap _) hc,
        if_neg hclose, ← Nat.add_assoc, hparts, ← Nat.add_assoc, hmore]

theorem skips_scalar {text : List Char} (hhead : ∃ c s, text = c :: s ∧ isBlank c = false ∧ c ≠ ']')
    (hskip : ∀ rest, Ended rest → skipScalar (text ++ rest) = .ok (some rest)) : Skips (Layout.atom text) := by
  obtain ⟨c, s, rfl, hc, hclose⟩ := hhead
  refine ⟨fun _ => ⟨c, s, rfl, hc, hclose⟩, fun _ => ⟨1, Nat.le_add_left 1 _, ?_⟩⟩
  intro count brackets blank rest hblank hrest
  exact skipSteps_scalar hblank hc (hskip rest hrest)

theorem skips_numeral {text : List Char} (hhead : ∃ c s, text = c :: s ∧ (c = '-' ∨ c.isDigit = true))
    (hread : ∀ rest, Ended rest → ∃ n, Numeral.read (text ++ rest) = .ok (n, rest)) : Skips (Layout.atom text) := by
  obtain ⟨c, s, rfl, hc⟩ := hhead
  refine skips_scalar ⟨c, s, rfl, numeral_head hc⟩ fun rest hrest => ?_
  obtain ⟨n, hn⟩ := hread rest hrest
  have hother : c ≠ 'n' ∧ c ≠ 't' ∧ c ≠ 'f' ∧ c ≠ '"' := by
    refine ⟨?_, ?_, ?_, ?_⟩ <;> rintro rfl <;> exact absurd hc (by decide)
  obtain ⟨hnull, htrue, hfalse, hquote⟩ := hother
  rw [List.cons_append] at hn ⊢
  simp only [skipScalar, hnull, htrue, hfalse, hquote, hc, ↓reduceIte, Numeral.skip_of_read hn]
  rfl

end Json

namespace Layout

open Json

variable {l : Layout}

theorem skips_array {α : Type} (hl : l.IsBlank) {f : α → Item} (h : ∀ a, Skips (f a)) (as : List α) :
    Skips (l.array (as.map f)) := by
  apply skips_enclosed (b := .array) hl
  intro item hitem
  obtain ⟨a, -, rfl⟩ := List.mem_map.mp hitem
  exact (h a).inArray

theorem skips_object (hl : l.IsBlank) {fields : List (List Char × Item)} (h : ∀ f ∈ fields, Plain f.1 ∧ Skips f.2) :
    Skips (l.object fields) := by
  apply skips_enclosed (b := .object) hl
  intro item hitem
  obtain ⟨f, hf, rfl⟩ := List.mem_map.mp hitem
  obtain ⟨hname, hvalue⟩ := h f hf
  exact skipsIn_field hl hname hvalue

theorem skips_number (a : Single) : Skips (number a) := by
  rw [number, Single.json]
  cases hfinite : a.isFinite with
  | false => exact skips_scalar ⟨'n', _, rfl, by decide, by decide⟩ fun _ _ => rfl
  | true => exact skips_numeral (a.head_text Record.numberStyle) fun rest hrest => ⟨_, Single.read_text hfinite hrest⟩

theorem skips_word (w : UInt32) : Skips (natural w.toNat) := by
  obtain ⟨c, s, htext, hc⟩ := exists_toDigits w.toNat
  exact skips_numeral ⟨c, s, htext, .inr hc⟩ fun rest hrest => ⟨_, read_toDigits (w.toNat_lt.trans (by decide)) hrest⟩

theorem skips_flag (b : Bool) : Skips (flag b) := by
  cases b with
  | false => exact skips_word 0
  | true => exact skips_word 1

theorem skips_vector (hl : l.IsBlank) (v : Vec3 Single) : Skips (l.vector v) :=
  skips_array hl skips_number v.toList

theorem skips_material (hl : l.IsBlank) (m : Material) : Skips (l.material m) := by
  apply skips_object hl
  intro field hfield
  obtain ⟨f, -, rfl⟩ := List.mem_map.mp hfield
  refine ⟨f.plain_name, ?_⟩
  cases f with
  | emittance => exact skips_vector hl m.emittance
  | reflectance => exact skips_vector hl m.reflectance
  | roughness => exact skips_number m.roughness
  | opacity => exact skips_number m.opacity

theorem skips_record (hl : l.IsBlank) (r : Record) : Skips (l.record r) := by
  apply skips_object hl
  intro field hfield
  obtain ⟨f, -, rfl⟩ := List.mem_map.mp hfield
  refine ⟨f.plain_name, ?_⟩
  cases f with
  | position => exact skips_vector hl r.position
  | orientation => exact skips_array hl (skips_vector hl) r.orientation.toList
  | size => exact skips_number r.size
  | material => exact skips_material hl r.material
  | children => exact skips_array hl skips_word r.children.toList
  | isLeaf => exact skips_flag r.isLeaf
  | isEmpty => exact skips_flag r.isEmpty

end Layout

namespace Json

def passOver : Reader Unit := fun s => do
  return ((), ← skipValue s)

def arrayLength (s : List Char) : Except Cause Nat := do
  let s ← openArray s
  let (values, rest) ← readElements passOver (s.length + 1) true s
  if (skipBlank rest).isEmpty then return values.length else .error .malformed

-- There are more steps than characters, so some are left when the value has been passed over.
theorem reads_passOver {item : Item} (h : Skips item) : Reads passOver item true () := by
  refine ⟨h.head, fun depth blank rest hblank hrest => ?_⟩
  obtain ⟨cost, hcost, hskip⟩ := h.skip depth
  have hlength : (blank ++ (item depth ++ rest)).length = blank.length + ((item depth).length + rest.length) := by
    simp only [List.length_append]
  obtain ⟨left, hleft⟩ : ∃ left, (blank ++ (item depth ++ rest)).length + 2 = left + 1 + cost :=
    ⟨(blank ++ (item depth ++ rest)).length + 1 - cost, by omega⟩
  rw [passOver, skipValue, hleft, hskip _ _ _ _ hblank hrest]
  rfl

theorem arrayLength_records {l : Layout} (hl : l.IsBlank) (rs : List Record) :
    arrayLength (l.records rs) = .ok rs.length := by
  obtain ⟨s, htext, hread⟩ : ∃ s, l.array (rs.map l.record) 0 ++ [] = '[' :: s ∧ _ :=
    Layout.readElements_array hl (fun r => reads_passOver (Layout.skips_record hl r)) rs
  have hopen : openArray ('[' :: s) = .ok s := rfl
  have hall : rs.all (fun _ => true) = true := by simp
  rw [List.append_nil] at htext
  rw [arrayLength, Layout.records, htext, hopen]
  simp only [bind_ok, hread, bind_readBack, hall, List.length_map]
  rfl

theorem arrayLength_encodeRecords (records : Array Record) (isPretty : Bool) :
    arrayLength (Utf8.lossy (encodeRecords records .json isPretty)) = .ok records.size := by
  rw [lossy_encodeRecords, arrayLength_records (Layout.isBlank_choose isPretty), Array.length_toList]

end Json

end VoxelOctree
