import VoxelOctree.Double
import VoxelOctree.Json.Reader

namespace VoxelOctree

namespace Json

/-- An integer that fits 64 bits, or the ordinal of a double-precision magnitude with its sign. -/
inductive Numeral where
  | natural (n : Nat)
  | negative (n : Nat)
  | real (isNegative : Bool) (ordinal : Nat)
  deriving DecidableEq, Repr

namespace Numeral

def digitValue (c : Char) : Nat :=
  c.toNat - '0'.toNat

/-- Appends digits to a significand, up to the first that does not fit; the others are left. -/
def absorb (significand : Nat) : List Char → Nat × List Char
  | [] => (significand, [])
  | c :: rest =>
    let next := significand * 10 + digitValue c
    if next < UInt64.size then absorb next rest else (significand, c :: rest)

def ofParts (isNegative : Bool) (significand : Nat) (exponent : Int) : Except Cause Numeral :=
  let start := Double.ofRatio significand 1
  if 0 ≤ exponent then
    match Double.mulTenPow? start exponent.toNat with
    | some a => .ok (.real isNegative a)
    | none => .error .malformed
  else .ok (.real isNegative (Double.divTenPow start (-exponent).toNat))

/-- An integer without fraction or exponent. A negative one that fits no signed word, and the negative
zero, are real. -/
def ofInteger (isNegative : Bool) (n : Nat) : Numeral :=
  if !isNegative then .natural n
  else if n = 0 ∨ 0x8000000000000000 < n then .real true (Double.ofRatio n 1)
  else .negative n

def maxExponent : Nat := 0x7fffffff

def readPower (isNegative down : Bool) (significand : Nat) (start : Int) : Reader Numeral := fun s =>
  let digits := s.takeWhile Char.isDigit
  let rest := s.dropWhile Char.isDigit
  if digits.isEmpty then .error (if s.isEmpty then .ended else .malformed)
  else
    let exponent := Nat.ofDigitChars 10 digits 0
    if maxExponent < exponent then
      if significand ≠ 0 ∧ !down then .error .malformed else .ok (.real isNegative 0, rest)
    else do
      let n ← ofParts isNegative significand (if down then start - exponent else start + exponent)
      return (n, rest)

def readExponent (isNegative : Bool) (significand : Nat) (start : Int) : Reader Numeral := fun s =>
  match s with
  | c :: rest =>
    if c = '+' then readPower isNegative false significand start rest
    else if c = '-' then readPower isNegative true significand start rest
    else readPower isNegative false significand start s
  | [] => readPower isNegative false significand start s

def isExponentMark (c : Char) : Bool :=
  decide (c = 'e' ∨ c = 'E')

def readScaled (isNegative : Bool) (significand : Nat) (exponent : Int) : Reader Numeral := fun s =>
  match s with
  | c :: rest =>
    if isExponentMark c then readExponent isNegative significand exponent rest
    else do return (← ofParts isNegative significand exponent, s)
  | [] => do return (← ofParts isNegative significand exponent, s)

def readFraction (isNegative : Bool) (significand : Nat) (exponent : Int) : Reader Numeral := fun s =>
  let digits := s.takeWhile Char.isDigit
  if digits.isEmpty then .error (if s.isEmpty then .ended else .malformed)
  else
    let (significand, left) := absorb significand digits
    readScaled isNegative significand (exponent - (digits.length - left.length : Nat))
      (s.dropWhile Char.isDigit)

def readUnsigned (isNegative : Bool) : Reader Numeral := fun s =>
  let digits := s.takeWhile Char.isDigit
  let rest := s.dropWhile Char.isDigit
  match digits with
  | [] => .error (if s.isEmpty then .ended else .malformed)
  | c :: more =>
    if c = '0' ∧ !more.isEmpty then .error .malformed
    else
      let (significand, left) := absorb 0 digits
      match rest with
      | d :: rest' =>
        if d = '.' then readFraction isNegative significand left.length rest'
        else if left.isEmpty ∧ !isExponentMark d then .ok (ofInteger isNegative significand, rest)
        else readScaled isNegative significand left.length rest
      | [] =>
        if left.isEmpty then .ok (ofInteger isNegative significand, rest)
        else readScaled isNegative significand left.length rest

def read : Reader Numeral := fun s =>
  match s with
  | c :: rest => if c = '-' then readUnsigned true rest else readUnsigned false s
  | [] => .error .ended

def toSingle : Numeral → Single
  | natural n => .ofRatio false n 1
  | negative n => .ofRatio true n 1
  | real isNegative a => Double.toSingle isNegative a

def skipDigits (s : List Char) : Except Cause (List Char) :=
  if (s.takeWhile Char.isDigit).isEmpty then .error .malformed else .ok (s.dropWhile Char.isDigit)

def skipExponent (s : List Char) : Except Cause (List Char) :=
  match s with
  | c :: rest =>
    if isExponentMark c then
      match rest with
      | d :: rest' => if d = '+' ∨ d = '-' then skipDigits rest' else skipDigits rest
      | [] => .error .malformed
    else .ok s
  | [] => .ok s

def skip (s : List Char) : Except Cause (List Char) := do
  let s := match s with
    | c :: rest => if c = '-' then rest else s
    | [] => s
  match s.takeWhile Char.isDigit with
  | c :: _ :: _ => if c = '0' then .error .malformed
  | _ => pure ()
  match ← skipDigits s with
  | c :: rest => if c = '.' then skipExponent (← skipDigits rest) else skipExponent (c :: rest)
  | [] => .ok []

end Numeral

end Json

end VoxelOctree
