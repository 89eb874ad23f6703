import VoxelOctree.Proofs.Json.Numeral
import VoxelOctree.Proofs.Single.DoubleRounding
import VoxelOctree.Record.Reader

namespace VoxelOctree

open Json Json.Numeral

theorem isDigit_toDigits (n : Nat) : ∀ c ∈ Nat.toDigits 10 n, c.isDigit = true :=
  fun _ => Nat.isDigit_of_mem_toDigits (by decide) (by decide)

theorem digitChar_eq_zero : ∀ n < 10, Nat.digitChar n = '0' → n = 0 := by
  decide

theorem head_toDigits (n : Nat) (h : (Nat.toDigits 10 n).head? = some '0') : n = 0 := by
  induction n using Nat.strong_induction_on with
  | _ n ih =>
    rw [Nat.toDigits_eq_if (by decide)] at h
    split_ifs at h with hn
    · exact digitChar_eq_zero n hn (Option.some.inj h)
    · have hhead : (Nat.toDigits 10 (n / 10)).head? = some '0' := by
        cases hq : Nat.toDigits 10 (n / 10) with
        | nil => exact absurd hq Nat.toDigits_ne_nil
        | cons c cs =>
          rw [hq] at h
          exact h
      have := ih (n / 10) (by omega) hhead
      omega

theorem leading_toDigits {n k : Nat} (h : n = 0 → k = 0) : Leading (Nat.toDigits 10 n ++ List.replicate k '0') := by
  refine ⟨?_, ?_, ?_⟩
  · intro c hc
    rcases List.mem_append.mp hc with hc | hc
    · exact isDigit_toDigits n c hc
    · rw [List.eq_of_mem_replicate hc]
      rfl
  · exact List.append_ne_nil_of_left_ne_nil Nat.toDigits_ne_nil _
  · intro hhead
    have hn : n = 0 := by
      apply head_toDigits
      cases hq : Nat.toDigits 10 n with
      | nil => exact absurd hq Nat.toDigits_ne_nil
      | cons c cs =>
        rw [hq] at hhead
        exact hhead
    rw [hn, h hn]
    rfl

theorem exists_toDigits (n : Nat) : ∃ c s, Nat.toDigits 10 n = c :: s ∧ c.isDigit = true := by
  obtain ⟨c, s, htext⟩ := List.exists_cons_of_ne_nil (Nat.toDigits_ne_nil (n := n) (b := 10))
  exact ⟨c, s, htext, isDigit_toDigits n c (by rw [htext]; exact List.mem_cons_self)⟩

theorem read_toDigits {n : Nat} {rest : List Char} (hn : n < UInt64.size) (hrest : Ended rest) :
    Numeral.read (Nat.toDigits 10 n ++ rest) = .ok (.natural n, rest) := by
  have hleading : Leading (Nat.toDigits 10 n) := by
    have h := leading_toDigits (n := n) (k := 0) fun _ => rfl
    rwa [List.replicate_zero, List.append_nil] at h
  have hread : readUnsigned false _ = _ :=
    readUnsigned_integer hleading (by rwa [Nat.ofDigitChars_ten_toDigits]) hrest
  obtain ⟨c, s, htext, hc⟩ := exists_toDigits n
  have hminus : c ≠ '-' := by
    rintro rfl
    exact absurd hc (by decide)
  rw [Nat.ofDigitChars_ten_toDigits] at hread
  rw [htext, List.cons_append] at hread ⊢
  rw [Numeral.read]
  simp only [hminus, ↓reduceIte, hread, ofInteger, Bool.not_false]

def padded (n places : Nat) : List Char :=
  List.replicate (places + 1 - (Nat.toDigits 10 n).length) '0' ++ Nat.toDigits 10 n

section

variable {n places : Nat}

theorem isDigit_padded (n places : Nat) : ∀ c ∈ padded n places, c.isDigit = true := by
  intro c hc
  rcases List.mem_append.mp hc with hc | hc
  · rw [List.eq_of_mem_replicate hc]
    rfl
  · exact isDigit_toDigits n c hc

theorem ofDigitChars_padded (n places : Nat) : Nat.ofDigitChars 10 (padded n places) 0 = n := by
  rw [padded, Nat.ofDigitChars_append, Nat.ofDigitChars_replicate_zero, Nat.mul_zero, Nat.ofDigitChars_ten_toDigits]

theorem length_padded (n places : Nat) :
    (padded n places).length = places + 1 - (Nat.toDigits 10 n).length + (Nat.toDigits 10 n).length := by
  rw [padded, List.length_append, List.length_replicate]

theorem length_drop_padded (n places : Nat) :
    ((padded n places).drop ((padded n places).length - places)).length = places := by
  rw [List.length_drop, length_padded]
  omega

theorem leading_take_padded (hn : n ≠ 0) :
    Leading ((padded n places).take ((padded n places).length - places)) := by
  have hlen := length_padded n places
  refine ⟨fun c hc => isDigit_padded n places c (List.mem_of_mem_take hc), ?_, ?_⟩
  · rw [← List.length_pos_iff, List.length_take]
    omega
  · intro hhead
    rw [List.length_take]
    by_cases hshort : (Nat.toDigits 10 n).length ≤ places
    · omega
    · have hplain : padded n places = Nat.toDigits 10 n := by
        rw [padded, Nat.sub_eq_zero_of_le (by omega)]
        rfl
      rw [List.head?_take, if_neg (by omega), hplain] at hhead
      exact absurd (head_toDigits n hhead) hn

end

namespace Decimal

variable {d : Decimal} {rest : List Char} {isNegative : Bool}

theorem readUnsigned_positional (hzero : d.digits = 0 → d.exponent = 0) (hfit : d.point.digits < UInt64.size)
    (hrest : Ended rest) : readUnsigned isNegative (d.positional ++ rest) =
      (ofParts isNegative d.point.digits d.point.exponent).map fun a => (a, rest) := by
  rw [← readScaled_of_ended hrest, positional]
  unfold point at hfit ⊢
  split_ifs at hfit ⊢ with he
  · have hvalue : Nat.ofDigitChars 10 (Nat.toDigits 10 d.digits ++ List.replicate d.exponent.toNat '0' ++ ['0']) 0 =
        d.digits * 10 ^ (d.exponent.toNat + 1) := by
      rw [Nat.ofDigitChars_append, Nat.ofDigitChars_append, Nat.ofDigitChars_ten_toDigits,
        Nat.ofDigitChars_replicate_zero, Nat.ofDigitChars_cons, Nat.ofDigitChars_nil, Nat.pow_succ, Nat.sub_self,
        Nat.add_zero]
      ring
    have hleading : Leading (Nat.toDigits 10 d.digits ++ List.replicate d.exponent.toNat '0') :=
      leading_toDigits fun h => by rw [hzero h]; rfl
    have hfraction : ∀ c ∈ ['0'], c.isDigit = true := by
      intro c hc
      rw [List.mem_singleton.mp hc]
      rfl
    have hread : readUnsigned isNegative _ = _ :=
      readUnsigned_fraction hleading hfraction (List.cons_ne_nil _ _) (by rwa [hvalue]) hrest.pastDigits
    rw [hvalue] at hread
    rw [List.append_assoc (_ ++ _)]
    exact hread
  · have hne : d.digits ≠ 0 := fun h => by
      have := hzero h
      omega
    have hlen := length_drop_padded d.digits (-d.exponent).toNat
    have hread : readUnsigned isNegative _ = _ := readUnsigned_fraction (leading_take_padded hne)
      (fun c hc => isDigit_padded d.digits (-d.exponent).toNat c (List.mem_of_mem_drop hc))
      (List.ne_nil_of_length_pos (by rw [hlen]; omega))
      (by rwa [List.take_append_drop, ofDigitChars_padded]) hrest.pastDigits
    rw [List.take_append_drop, ofDigitChars_padded, hlen, show -((-d.exponent).toNat : Int) = d.exponent by omega,
      ← List.cons_append, ← List.append_assoc] at hread
    exact hread

theorem readUnsigned_scientific (hfit : d.digits < UInt64.size) (hexp : d.leadingExponent.natAbs ≤ maxExponent)
    (hrest : PastDigits rest) : readUnsigned isNegative (d.scientific ++ rest) =
      (ofParts isNegative d.digits d.exponent).map fun a => (a, rest) := by
  have hdigits := isDigit_toDigits d.digits
  have hvalue : Nat.ofDigitChars 10 (Nat.toDigits 10 d.digits) 0 = d.digits := Nat.ofDigitChars_ten_toDigits
  have hmark : (if 0 ≤ d.leadingExponent then ['e', '+'] else ['e', '-']) ++
      (Nat.toDigits 10 d.leadingExponent.natAbs ++ rest) =
      'e' :: (if decide (d.leadingExponent < 0) then '-' else '+') ::
        (Nat.toDigits 10 d.leadingExponent.natAbs ++ rest) := by
    by_cases h : 0 ≤ d.leadingExponent
    · simp [h, Int.not_lt.mpr h]
    · simp [h, Int.not_le.mp h]
  have hscaled : ∀ start : Int, start + d.leadingExponent = d.exponent →
      readScaled isNegative d.digits start ('e' :: (if decide (d.leadingExponent < 0) then '-' else '+') ::
        (Nat.toDigits 10 d.leadingExponent.natAbs ++ rest)) =
      (ofParts isNegative d.digits d.exponent).map fun a => (a, rest) := by
    intro start hstart
    rw [readScaled_exponent _ hexp hrest]
    congr 2
    split_ifs with h <;> simp only [decide_eq_true_eq] at h <;> omega
  have hpast : PastDigits ('e' :: (if decide (d.leadingExponent < 0) then '-' else '+') ::
      (Nat.toDigits 10 d.leadingExponent.natAbs ++ rest)) := by
    rintro c ⟨⟩
    rfl
  have hleading : d.leadingExponent = d.exponent + (Nat.toDigits 10 d.digits).length - 1 := rfl
  have hne : Nat.toDigits 10 d.digits ≠ [] := Nat.toDigits_ne_nil
  unfold scientific
  generalize Nat.toDigits 10 d.digits = cs at *
  match cs with
  | [] => exact absurd rfl hne
  | [c] =>
    simp only [List.append_assoc]
    rw [hmark, ← hscaled 0 (by rw [List.length_singleton] at hleading; omega)]
    have hlead : Leading [c] := ⟨hdigits, hne, fun _ => rfl⟩
    rw [readUnsigned_leading hlead (by rwa [hvalue]) hpast, hvalue]
    simp only [show ('e' : Char) ≠ '.' by decide, show isExponentMark 'e' = true from rfl, ↓reduceIte]
  | first :: second :: more =>
    -- all digits but the first are a fraction, which the exponent makes up for
    simp only [List.append_assoc]
    rw [hmark, ← hscaled (-((second :: more).length : Int)) (by rw [List.length_cons] at hleading; omega)]
    have hlead : Leading [first] := ⟨fun c hc => hdigits c (List.mem_of_mem_take (i := 1) hc), by simp, fun _ => rfl⟩
    have hread : readUnsigned isNegative _ = _ := readUnsigned_fraction hlead
      (fun c hc => hdigits c (List.mem_cons_of_mem _ hc)) (List.cons_ne_nil second more)
      (by rwa [← hvalue] at hfit) hpast
    rw [show [first] ++ second :: more = first :: second :: more from rfl, hvalue] at hread
    exact hread

theorem head_positional (d : Decimal) : ∃ c s, d.positional = c :: s ∧ c.isDigit = true := by
  rw [positional]
  split_ifs with he
  · cases hcs : Nat.toDigits 10 d.digits with
    | nil => exact absurd hcs Nat.toDigits_ne_nil
    | cons c cs => exact ⟨c, _, rfl, isDigit_toDigits d.digits c (by rw [hcs]; exact List.mem_cons_self ..)⟩
  · have hlen := length_padded d.digits (-d.exponent).toNat
    cases htake : (padded d.digits (-d.exponent).toNat).take ((padded d.digits (-d.exponent).toNat).length -
        (-d.exponent).toNat) with
    | nil =>
      rw [← List.length_eq_zero_iff, List.length_take] at htake
      omega
    | cons c cs =>
      have hmem : c ∈ padded d.digits (-d.exponent).toNat :=
        List.mem_of_mem_take (by rw [htake]; exact List.mem_cons_self ..)
      exact ⟨c, _, congrArg (· ++ _) htake, isDigit_padded _ _ c hmem⟩

theorem head_scientific (d : Decimal) : ∃ c s, d.scientific = c :: s ∧ c.isDigit = true := by
  have hdigits := isDigit_toDigits d.digits
  have hne : Nat.toDigits 10 d.digits ≠ [] := Nat.toDigits_ne_nil
  unfold scientific
  generalize Nat.toDigits 10 d.digits = cs at *
  match cs with
  | [] => exact absurd rfl hne
  | [c] => exact ⟨c, _, rfl, hdigits c (List.mem_cons_self ..)⟩
  | first :: second :: more => exact ⟨first, _, rfl, hdigits first (List.mem_cons_self ..)⟩

def shown (style : DecimalStyle) (d : Decimal) : Decimal :=
  if style.lowest ≤ d.leadingExponent ∧ d.leadingExponent ≤ style.highest then d.point else d

theorem head_write (style : DecimalStyle) (d : Decimal) : ∃ c s, style.write d = c :: s ∧ c.isDigit = true := by
  rw [DecimalStyle.write]
  split_ifs
  · exact d.head_positional
  · exact d.head_scientific

theorem readUnsigned_write {style : DecimalStyle} (hzero : d.digits = 0 → d.exponent = 0)
    (hfit : (d.shown style).digits < UInt64.size) (hexp : d.leadingExponent.natAbs ≤ maxExponent)
    (hrest : Ended rest) : readUnsigned isNegative (style.write d ++ rest) =
      (ofParts isNegative (d.shown style).digits (d.shown style).exponent).map fun a => (a, rest) := by
  unfold shown at hfit ⊢
  rw [DecimalStyle.write]
  split_ifs at hfit ⊢ with hstyle
  · exact readUnsigned_positional hzero hfit hrest
  · exact readUnsigned_scientific hfit hexp hrest.pastDigits

end Decimal

namespace Json.Numeral

theorem ofParts_eq {p : Decimal} (isNegative : Bool) (hlow : -308 ≤ p.exponent) (hhigh : p.exponent ≤ 308)
    (hfinite : Double.ofDecimal p < BinaryFormat.binary64.infinity) :
    ofParts isNegative p.digits p.exponent = .ok (.real isNegative (Double.ofDecimal p)) := by
  unfold Double.ofDecimal at hfinite ⊢
  rw [ofParts]
  split_ifs at hfinite ⊢ with he
  · have hn : p.exponent.toNat ≤ Double.maxTenPow := by
      rw [Double.maxTenPow]
      omega
    have hfin : Double.isInfinite
        (Double.mul (Double.ofRatio p.digits 1) (Double.tenPow p.exponent.toNat)) = false := by
      rw [Double.isInfinite, decide_eq_false_iff_not]
      omega
    simp only [Double.mulTenPow?, hn, ↓reduceIte, hfin, Bool.false_eq_true]
  · have hn : (-p.exponent).toNat ≤ Double.maxTenPow := by
      rw [Double.maxTenPow]
      omega
    rw [Double.divTenPow, if_pos hn]

end Json.Numeral

namespace Single

variable {a : Single} {blank rest : List Char}

theorem shortest_bounds (hfinite : a.isFinite = true) : a.shortest.digits ≤ 2 ^ 40 ∧
    -55 ≤ a.shortest.exponent ∧ a.shortest.exponent ≤ 39 ∧ (a.shortest.digits = 0 → a.shortest.exponent = 0) := by
  by_cases ho : 0 < a.ordinal
  · have hshort := shortestFor_shortest hfinite ho
    have hpos := hshort.digits_pos ho
    exact ⟨hshort.digits_le, hshort.lowest, hshort.highest, fun h => by omega⟩
  · rw [shortest_of_zero (by omega)]
    decide

theorem length_shortest_le (hfinite : a.isFinite = true) : (Nat.toDigits 10 a.shortest.digits).length ≤ 13 := by
  have hdigits := (shortest_bounds hfinite).1
  rw [Nat.length_toDigits_le_iff (by decide) (by decide)]
  omega

theorem shown_eq (a : Single) : a.shortest.shown Record.numberStyle = a.shortest ∨
    a.shortest.shown Record.numberStyle = a.shortest.point := by
  rw [Decimal.shown]
  split_ifs
  · exact .inr rfl
  · exact .inl rfl

theorem digits_shown_le (hfinite : a.isFinite = true) : (a.shortest.shown Record.numberStyle).digits ≤ 2 ^ 53 := by
  have hdigits := (shortest_bounds hfinite).1
  unfold Decimal.shown
  split_ifs with hstyle
  · unfold Decimal.point
    split_ifs with he
    · have hlead : a.shortest.exponent + (Nat.toDigits 10 a.shortest.digits).length - 1 ≤ 12 := hstyle.2
      have hlt : a.shortest.digits < 10 ^ (Nat.toDigits 10 a.shortest.digits).length :=
        (Nat.length_toDigits_le_iff (by decide) Nat.length_toDigits_pos).mp (Nat.le_refl _)
      calc a.shortest.digits * 10 ^ (a.shortest.exponent.toNat + 1) ≤
            10 ^ (Nat.toDigits 10 a.shortest.digits).length * 10 ^ (a.shortest.exponent.toNat + 1) :=
            Nat.mul_le_mul_right _ hlt.le
        _ = 10 ^ ((Nat.toDigits 10 a.shortest.digits).length + (a.shortest.exponent.toNat + 1)) :=
            (Nat.pow_add ..).symm
        _ ≤ 10 ^ 14 := Nat.pow_le_pow_right (by decide) (by omega)
        _ ≤ 2 ^ 53 := by decide
    · omega
  · omega

theorem exponent_shown (hfinite : a.isFinite = true) : -55 ≤ (a.shortest.shown Record.numberStyle).exponent ∧
    (a.shortest.shown Record.numberStyle).exponent ≤ 55 := by
  obtain ⟨-, hlow, hhigh, -⟩ := shortest_bounds hfinite
  have hpoint := a.shortest.exponent_point
  rcases a.shown_eq with h | h <;> rw [h] <;> omega

theorem ofDecimal_shown_lt (hfinite : a.isFinite = true) :
    Double.ofDecimal (a.shortest.shown Record.numberStyle) < BinaryFormat.binary64.infinity := by
  obtain ⟨hlow, hhigh⟩ := exponent_shown hfinite
  by_cases ho : 0 < a.ordinal
  · have hpos : 0 < (a.shortest.shown Record.numberStyle).digits := by
      have hpos := (shortestFor_shortest hfinite ho).digits_pos ho
      rcases a.shown_eq with h | h <;> rw [h]
      · exact hpos
      · exact Decimal.digits_point_pos hpos
    exact (Double.ofDecimal_error hpos (digits_shown_le hfinite) hlow hhigh).1
  · rw [shortest_of_zero (by omega)]
    decide +kernel

theorem readUnsigned_shortest (hfinite : a.isFinite = true) (hrest : Ended rest) :
    readUnsigned a.negative (Record.numberStyle.write a.shortest ++ rest) =
      .ok (.real a.negative (Double.ofDecimal (a.shortest.shown Record.numberStyle)), rest) := by
  obtain ⟨-, hlow, hhigh, hzero⟩ := shortest_bounds hfinite
  obtain ⟨hlow', hhigh'⟩ := exponent_shown hfinite
  have hlen := length_shortest_le hfinite
  have hexp : a.shortest.leadingExponent.natAbs ≤ maxExponent := by
    rw [Decimal.leadingExponent, maxExponent]
    omega
  rw [Decimal.readUnsigned_write hzero ((digits_shown_le hfinite).trans_lt (by decide)) hexp hrest,
    ofParts_eq a.negative (by omega) (by omega) (ofDecimal_shown_lt hfinite)]
  rfl

theorem read_text (hfinite : a.isFinite = true) (hrest : Ended rest) :
    Numeral.read (a.text Record.numberStyle ++ rest) =
      .ok (.real a.negative (Double.ofDecimal (a.shortest.shown Record.numberStyle)), rest) := by
  have hread := readUnsigned_shortest hfinite hrest
  rw [text]
  cases hneg : a.negative with
  | true =>
    rw [hneg] at hread
    exact hread
  | false =>
    obtain ⟨c, s, hwrite, hc⟩ := Decimal.head_write Record.numberStyle a.shortest
    have hminus : c ≠ '-' := by
      rintro rfl
      exact absurd hc (by decide)
    rw [hneg, hwrite] at hread
    rw [hwrite]
    simp only [Bool.false_eq_true, ↓reduceIte, List.cons_append, Numeral.read, hminus]
    exact hread

end Single

end VoxelOctree
