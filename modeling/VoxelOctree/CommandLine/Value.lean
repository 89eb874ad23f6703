namespace VoxelOctree

namespace CommandLine

inductive IntegerError where
  | empty
  | invalidDigit
  | tooLarge
  | tooSmall
  deriving DecidableEq, Repr

def IntegerError.message : IntegerError → String
  | empty => "cannot parse integer from empty string"
  | invalidDigit => "invalid digit found in string"
  | tooLarge => "number too large to fit in target type"
  | tooSmall => "number too small to fit in target type"

def readDigits (bound : Nat) (overflow : IntegerError) (n : Nat) : List Char → Except IntegerError Nat
  | [] => .ok n
  | c :: rest =>
    if !c.isDigit then .error .invalidDigit
    else
      let next := n * 10 + (c.toNat - '0'.toNat)
      if bound < next then .error overflow else readDigits bound overflow next rest

def readMagnitude (bound : Nat) (overflow : IntegerError) (s : List Char) : Except IntegerError Nat :=
  if s.isEmpty then .error .invalidDigit else readDigits bound overflow 0 s

def readUnsigned (s : List Char) : Except IntegerError Nat :=
  match s with
  | [] => .error .empty
  | c :: rest => readMagnitude (UInt64.size - 1) .tooLarge (if c = '+' then rest else s)

def readSigned (s : List Char) : Except IntegerError Int :=
  match s with
  | [] => .error .empty
  | c :: rest =>
    if c = '-' then (readMagnitude 0x8000000000000000 .tooSmall rest).map fun n => -(n : Int)
    else (readMagnitude 0x7fffffffffffffff .tooLarge (if c = '+' then rest else s)).map Int.ofNat

end CommandLine

end VoxelOctree
