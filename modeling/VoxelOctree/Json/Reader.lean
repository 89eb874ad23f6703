namespace VoxelOctree

namespace Json

inductive Cause where
  | malformed
  | mismatch
  | ended
  deriving DecidableEq, Repr

abbrev Reader (α : Type) := List Char → Except Cause (α × List Char)

def isBlank (c : Char) : Bool :=
  decide (c = ' ' ∨ c = '\n' ∨ c = '\r' ∨ c = '\t')

def skipBlank (s : List Char) : List Char :=
  s.dropWhile isBlank

def literal : List Char → List Char → Except Cause (List Char)
  | [], s => .ok s
  | _ :: _, [] => .error .ended
  | c :: cs, d :: s => if c = d then literal cs s else .error .malformed

def colon (s : List Char) : Except Cause (List Char) :=
  match skipBlank s with
  | [] => .error .ended
  | c :: rest => if c = ':' then .ok rest else .error .malformed

def nextElement (isFirst : Bool) (s : List Char) : Except Cause (Option (List Char)) :=
  match skipBlank s with
  | [] => .error .ended
  | c :: rest =>
    if c = ']' then .ok none
    else if isFirst then .ok (some (c :: rest))
    else if c = ',' then
      match skipBlank rest with
      | [] => .error .ended
      | d :: rest' => if d = ']' then .error .malformed else .ok (some (d :: rest'))
    else .error .malformed

def element {α : Type} (isFirst : Bool) (read : Reader α) : Reader α := fun s => do
  match ← nextElement isFirst s with
  | none => .error .mismatch
  | some s => read s

def closeArray (s : List Char) : Except Cause (List Char) :=
  match skipBlank s with
  | [] => .error .ended
  | c :: rest => if c = ']' then .ok rest else .error .malformed

def nextName (isFirst : Bool) (s : List Char) : Except Cause (List Char ⊕ List Char) :=
  let name (s : List Char) : Except Cause (List Char ⊕ List Char) :=
    match s with
    | [] => .error .ended
    | c :: rest => if c = '"' then .ok (.inl rest) else .error .malformed
  match skipBlank s with
  | [] => .error .ended
  | c :: rest =>
    if c = '\x7d' then .ok (.inr rest)
    else if isFirst then name (c :: rest)
    else if c = ',' then name (skipBlank rest)
    else .error .malformed

end Json

end VoxelOctree
