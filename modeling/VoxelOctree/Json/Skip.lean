import VoxelOctree.Json.Numeral
import VoxelOctree.Json.Quoted

namespace VoxelOctree

namespace Json

inductive Bracket where
  | array
  | object
  deriving DecidableEq, Repr

def Bracket.closing : Bracket → Char
  | array => ']'
  | object => '\x7d'

def skipName (s : List Char) : Except Cause (List Char) :=
  match skipBlank s with
  | [] => .error .ended
  | c :: rest => if c = '"' then do colon (← Quoted.skip rest) else .error .malformed

def Bracket.enter (b : Bracket) (s : List Char) : Except Cause (List Char) :=
  match b with
  | array => .ok s
  | object => skipName s

def skipScalar (s : List Char) : Except Cause (Option (List Char)) :=
  match s with
  | [] => .error .ended
  | c :: rest =>
    if c = 'n' then (literal ['u', 'l', 'l'] rest).map some
    else if c = 't' then (literal ['r', 'u', 'e'] rest).map some
    else if c = 'f' then (literal ['a', 'l', 's', 'e'] rest).map some
    else if c = '"' then (Quoted.skip rest).map some
    else if c = '-' ∨ c.isDigit then (Numeral.skip s).map some
    else if c = '[' ∨ c = '\x7b' then .ok none
    else .error .malformed

inductive Stage where
  | value
  | after
  deriving DecidableEq, Repr

/-- Passes over a value and the rest of all brackets that are open, the innermost first. Every step
takes at least one character, so the number of characters left bounds the steps. -/
def skipSteps : Nat → Stage → List Bracket → List Char → Except Cause (List Char)
  | 0, _, _, _ => .error .malformed
  | _ + 1, .after, [], s => .ok s
  | steps + 1, .after, b :: brackets, s =>
    match skipBlank s with
    | [] => .error .ended
    | c :: rest =>
      if c = ',' then do skipSteps steps .value (b :: brackets) (← b.enter rest)
      else if c = b.closing then skipSteps steps .after brackets rest
      else .error .malformed
  | steps + 1, .value, brackets, s => do
    let s := skipBlank s
    match ← skipScalar s with
    | some rest => skipSteps steps .after brackets rest
    | none =>
      let b : Bracket := if s.head? = some '[' then .array else .object
      match skipBlank s.tail with
      | [] => .error .ended
      | c :: rest =>
        if c = b.closing then skipSteps steps .after brackets rest
        else skipSteps steps .value (b :: brackets) (← b.enter (c :: rest))

def skipValue (s : List Char) : Except Cause (List Char) :=
  skipSteps (s.length + 2) .value [] s

def mismatchCause (s : List Char) : Cause :=
  match s with
  | [] => .ended
  | c :: rest =>
    let whole : Except Cause Unit :=
      if c = '"' then (Quoted.read rest).map fun _ => ()
      else if c = '-' ∨ c.isDigit then (Numeral.read s).map fun _ => ()
      else (skipScalar s).map fun _ => ()
    match whole with
    | .error e => e
    | .ok () => .mismatch

end Json

end VoxelOctree
