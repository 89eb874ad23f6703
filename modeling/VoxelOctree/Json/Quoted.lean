import VoxelOctree.Json.Reader

namespace VoxelOctree

namespace Json

namespace Quoted

/-- What the next character belongs to: the text, a character behind a backslash, or one of the digits
of a code unit, of which `left` are still to come. `lead` is the first half of a surrogate pair whose
second half has to follow. -/
inductive State where
  | plain
  | escape
  | unit (lead : Option Nat) (left value : Nat)
  | pairBackslash (lead : Nat)
  | pairLetter (lead : Nat)
  deriving DecidableEq, Repr

def hexDigit? (c : Char) : Option Nat :=
  if '0' ≤ c ∧ c ≤ '9' then some (c.toNat - '0'.toNat)
  else if 'a' ≤ c ∧ c ≤ 'f' then some (c.toNat - 'a'.toNat + 10)
  else if 'A' ≤ c ∧ c ≤ 'F' then some (c.toNat - 'A'.toNat + 10)
  else none

def escaped? (c : Char) : Option Char :=
  if c = '"' ∨ c = '\\' ∨ c = '/' then some c
  else if c = 'b' then some (Char.ofNat 8)
  else if c = 'f' then some (Char.ofNat 12)
  else if c = 'n' then some '\n'
  else if c = 'r' then some '\r'
  else if c = 't' then some '\t'
  else none

def hasUnit (s : List Char) : Bool :=
  decide (4 ≤ (s.take 4).foldl (fun n c => n + c.utf8Size) 0)

def isLead (n : Nat) : Bool :=
  decide (0xD800 ≤ n ∧ n ≤ 0xDBFF)

def isTrail (n : Nat) : Bool :=
  decide (0xDC00 ≤ n ∧ n ≤ 0xDFFF)

def complete (lead : Option Nat) (n : Nat) : Except Cause (Char ⊕ Nat) :=
  match lead with
  | some m =>
    if isTrail n then .ok (.inl (Char.ofNat ((m - 0xD800) * 0x400 + (n - 0xDC00) + 0x10000)))
    else .error .malformed
  | none =>
    if isTrail n then .error .malformed
    else if isLead n then .ok (.inr n)
    else .ok (.inl (Char.ofNat n))

/-- The text up to the closing quote and what follows. A loose reading takes any code unit. -/
def scan (isLoose : Bool) : State → List Char → Except Cause (List Char × List Char)
  | _, [] => .error .ended
  | .plain, c :: s =>
    if c = '"' then .ok ([], s)
    else if c = '\\' then scan isLoose .escape s
    else if c.toNat < 0x20 then .error .malformed
    else (scan isLoose .plain s).map fun r => (c :: r.1, r.2)
  | .escape, c :: s =>
    if c = 'u' then
      if hasUnit s then scan isLoose (.unit none 3 0) s else .error .ended
    else match escaped? c with
      | some d => (scan isLoose .plain s).map fun r => (d :: r.1, r.2)
      | none => .error .malformed
  | .unit lead left value, c :: s =>
    match hexDigit? c with
    | none => .error .malformed
    | some d =>
      let n := value * 16 + d
      match left with
      | left + 1 => scan isLoose (.unit lead left n) s
      | 0 =>
        if isLoose then scan isLoose .plain s
        else match complete lead n with
          | .error e => .error e
          | .ok (.inl d) => (scan isLoose .plain s).map fun r => (d :: r.1, r.2)
          | .ok (.inr m) => scan isLoose (.pairBackslash m) s
  | .pairBackslash lead, c :: s =>
    if c = '\\' then scan isLoose (.pairLetter lead) s else .error .malformed
  | .pairLetter lead, c :: s =>
    if c = 'u' then
      if hasUnit s then scan isLoose (.unit (some lead) 3 0) s else .error .ended
    else .error .malformed

def read : Reader (List Char) :=
  scan false .plain

def skip (s : List Char) : Except Cause (List Char) :=
  (scan true .plain s).map Prod.snd

end Quoted

end Json

end VoxelOctree
