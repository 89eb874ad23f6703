import VoxelOctree.Single.Shortest

namespace VoxelOctree

inductive LiteralError where
  | empty
  | invalid
  deriving DecidableEq, Repr

def LiteralError.message : LiteralError → String
  | empty => "cannot parse float from empty string"
  | invalid => "invalid float literal"

namespace Single

def infinity : Single := ⟨0x7f800000⟩

/-- The number nearest to a decimal of any exponent. Beyond `10 ^ 39` there are no finite numbers, and
below `10 ^ -46` all decimals round to zero. -/
def ofDecimal (negative : Bool) (d : Decimal) : Single :=
  if d.digits = 0 then ofOrdinal negative 0
  else if 39 ≤ d.leadingExponent then ofOrdinal negative BinaryFormat.binary32.infinity
  else if d.leadingExponent < -46 then ofOrdinal negative 0
  else d.toSingle negative

def named? (s : List Char) : Option Single :=
  let s := String.ofList (s.map Char.toLower)
  if s = "inf" ∨ s = "infinity" then some infinity
  else if s = "nan" then some nan
  else none

def exponent? (s : List Char) : Option Int :=
  match s with
  | [] => some 0
  | mark :: rest =>
    let (negative, digits) := match rest with
      | c :: more => if c = '-' then (true, more) else if c = '+' then (false, more) else (false, rest)
      | [] => (false, rest)
    if (mark = 'e' ∨ mark = 'E') ∧ !digits.isEmpty ∧ digits.all Char.isDigit then
      let n : Int := Nat.ofDigitChars 10 digits 0
      some (if negative then -n else n)
    else none

def decimal? (s : List Char) : Option Decimal :=
  let whole := s.takeWhile Char.isDigit
  let rest := s.dropWhile Char.isDigit
  let (fraction, rest) := match rest with
    | c :: more => if c = '.' then (more.takeWhile Char.isDigit, more.dropWhile Char.isDigit) else ([], rest)
    | [] => ([], rest)
  if whole.isEmpty ∧ fraction.isEmpty then none
  else (exponent? rest).map fun e =>
    ⟨Nat.ofDigitChars 10 (whole ++ fraction) 0, e - fraction.length⟩

def ofLiteral (s : List Char) : Except LiteralError Single :=
  if s.isEmpty then .error .empty
  else
    let (negative, body) := match s with
      | c :: rest => if c = '-' then (true, rest) else if c = '+' then (false, rest) else (false, s)
      | [] => (false, s)
    match decimal? body, named? body with
    | some d, _ => .ok (ofDecimal negative d)
    | none, some a => .ok (if negative then -a else a)
    | none, none => .error .invalid

end Single

end VoxelOctree
