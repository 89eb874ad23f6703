import Mathlib.Tactic.Ring
import VoxelOctree.Json.Numeral

namespace VoxelOctree

namespace Json

namespace Numeral

variable {s rest ds : List Char} {isNegative : Bool} {significand n : Nat} {exponent : Int}

def PastDigits (s : List Char) : Prop :=
  ∀ c ∈ s.head?, c.isDigit = false

def Ended (s : List Char) : Prop :=
  ∀ c ∈ s.head?, c.isDigit = false ∧ c ≠ '.' ∧ isExponentMark c = false

theorem Ended.pastDigits (h : Ended s) : PastDigits s :=
  fun c hc => (h c hc).1

theorem takeWhile_digits (hds : ∀ c ∈ ds, c.isDigit = true) (hrest : PastDigits rest) :
    (ds ++ rest).takeWhile Char.isDigit = ds := by
  rw [List.takeWhile_append_of_pos hds]
  cases rest with
  | nil => simp
  | cons c rest => simp [hrest c rfl]

theorem dropWhile_digits (hds : ∀ c ∈ ds, c.isDigit = true) (hrest : PastDigits rest) :
    (ds ++ rest).dropWhile Char.isDigit = rest := by
  rw [List.dropWhile_append_of_pos hds]
  cases rest with
  | nil => rfl
  | cons c rest => simp [hrest c rfl]

theorem le_ofDigitChars (ds : List Char) (n : Nat) : n ≤ Nat.ofDigitChars 10 ds n := by
  rw [Nat.ofDigitChars_eq_ofDigitChars_zero]
  exact (Nat.le_mul_of_pos_left n (Nat.pow_pos (by decide))).trans (Nat.le_add_right _ _)

theorem absorb_eq (h : Nat.ofDigitChars 10 ds n < UInt64.size) :
    absorb n ds = (Nat.ofDigitChars 10 ds n, []) := by
  induction ds generalizing n with
  | nil => rfl
  | cons c ds ih =>
    rw [Nat.ofDigitChars_cons] at h ⊢
    have hnext : n * 10 + digitValue c = 10 * n + (c.toNat - '0'.toNat) := by
      rw [digitValue, Nat.mul_comm]
    simp only [absorb, hnext]
    rw [if_pos ((le_ofDigitChars ds _).trans_lt h), ih h]

theorem readScaled_of_ended (h : Ended rest) :
    readScaled isNegative significand exponent rest =
      (ofParts isNegative significand exponent).map fun a => (a, rest) := by
  have hread : ∀ s : List Char, (do return (← ofParts isNegative significand exponent, s) : Except Cause _) =
      (ofParts isNegative significand exponent).map fun a => (a, s) := by
    intro s
    cases ofParts isNegative significand exponent <;> rfl
  cases rest with
  | nil => exact hread []
  | cons c rest =>
    rw [readScaled]
    simp only [(h c rfl).2.2, Bool.false_eq_true, ↓reduceIte]
    exact hread (c :: rest)

theorem readScaled_exponent (down : Bool) (hn : n ≤ maxExponent) (hrest : PastDigits rest) :
    readScaled isNegative significand exponent
        ('e' :: (if down then '-' else '+') :: (Nat.toDigits 10 n ++ rest)) =
      (ofParts isNegative significand (if down then exponent - n else exponent + n)).map fun a => (a, rest) := by
  have hdigits : ∀ c ∈ Nat.toDigits 10 n, c.isDigit = true := fun c =>
    Nat.isDigit_of_mem_toDigits (by decide) (by decide)
  have htake := takeWhile_digits hdigits hrest
  have hdrop := dropWhile_digits hdigits hrest
  have hempty : (Nat.toDigits 10 n).isEmpty = false := by
    rw [List.isEmpty_eq_false_iff]
    exact Nat.toDigits_ne_nil
  rw [readScaled]
  simp only [show isExponentMark 'e' = true from rfl, ↓reduceIte, readExponent]
  cases down <;>
    simp only [Bool.false_eq_true, ↓reduceIte, readPower, htake, hdrop, hempty, Nat.ofDigitChars_ten_toDigits,
      Nat.not_lt.mpr hn, show ('-' : Char) ≠ '+' from by decide] <;>
    cases ofParts isNegative significand _ <;> rfl

/-- Digits in front of the point: at least one, and a zero only alone. -/
structure Leading (ds : List Char) : Prop where
  digits : ∀ c ∈ ds, c.isDigit = true
  ne_nil : ds ≠ []
  zero : ds.head? = some '0' → ds.length = 1

theorem readUnsigned_leading (hds : Leading ds) (hfit : Nat.ofDigitChars 10 ds 0 < UInt64.size)
    (hrest : PastDigits rest) : readUnsigned isNegative (ds ++ rest) =
      match rest with
      | d :: rest' =>
        if d = '.' then readFraction isNegative (Nat.ofDigitChars 10 ds 0) 0 rest'
        else if isExponentMark d then readScaled isNegative (Nat.ofDigitChars 10 ds 0) 0 rest
        else .ok (ofInteger isNegative (Nat.ofDigitChars 10 ds 0), rest)
      | [] => .ok (ofInteger isNegative (Nat.ofDigitChars 10 ds 0), rest) := by
  obtain ⟨hdigits, hne, hzero⟩ := hds
  have habsorb := absorb_eq hfit
  rw [readUnsigned]
  simp only [takeWhile_digits hdigits hrest, dropWhile_digits hdigits hrest]
  cases ds with
  | nil => exact absurd rfl hne
  | cons c more =>
    have hplain : ¬ (c = '0' ∧ (!more.isEmpty) = true) := by
      rintro ⟨rfl, hmore⟩
      have hlen := hzero rfl
      rw [List.length_cons, Nat.add_eq_right, List.length_eq_zero_iff] at hlen
      rw [hlen] at hmore
      exact absurd hmore (by decide)
    simp only [hplain, ↓reduceIte, habsorb]
    cases rest with
    | nil => rfl
    | cons d rest' =>
      by_cases hd : d = '.'
      · simp [hd]
      · cases he : isExponentMark d <;> simp [hd, he]

theorem readUnsigned_integer (hds : Leading ds) (hfit : Nat.ofDigitChars 10 ds 0 < UInt64.size) (hrest : Ended rest) :
    readUnsigned isNegative (ds ++ rest) = .ok (ofInteger isNegative (Nat.ofDigitChars 10 ds 0), rest) := by
  rw [readUnsigned_leading hds hfit hrest.pastDigits]
  cases rest with
  | nil => rfl
  | cons c rest =>
    obtain ⟨-, hpoint, hmark⟩ := hrest c rfl
    simp only [hpoint, hmark, Bool.false_eq_true, ↓reduceIte]

theorem readFraction_eq {fs : List Char} (hfs : ∀ c ∈ fs, c.isDigit = true) (hne : fs ≠ [])
    (hfit : Nat.ofDigitChars 10 fs significand < UInt64.size) (hrest : PastDigits rest) :
    readFraction isNegative significand exponent (fs ++ rest) =
      readScaled isNegative (Nat.ofDigitChars 10 fs significand) (exponent - fs.length) rest := by
  rw [readFraction]
  simp only [takeWhile_digits hfs hrest, dropWhile_digits hfs hrest, absorb_eq hfit,
    List.isEmpty_eq_false_iff.mpr hne, Bool.false_eq_true, ↓reduceIte, List.length_nil, Nat.sub_zero]

theorem readUnsigned_fraction {fs : List Char} (hds : Leading ds) (hfs : ∀ c ∈ fs, c.isDigit = true) (hne : fs ≠ [])
    (hfit : Nat.ofDigitChars 10 (ds ++ fs) 0 < UInt64.size) (hrest : PastDigits rest) :
    readUnsigned isNegative (ds ++ '.' :: (fs ++ rest)) =
      readScaled isNegative (Nat.ofDigitChars 10 (ds ++ fs) 0) (-(fs.length : Int)) rest := by
  rw [Nat.ofDigitChars_append] at hfit ⊢
  have hpoint : PastDigits ('.' :: (fs ++ rest)) := by
    rintro c ⟨⟩
    rfl
  rw [readUnsigned_leading hds ((le_ofDigitChars fs _).trans_lt hfit) hpoint]
  simp only [↓reduceIte]
  rw [readFraction_eq hfs hne hfit hrest, Int.zero_sub]

end Numeral

end Json

end VoxelOctree
