import VoxelOctree.Utf8

namespace VoxelOctree

namespace Terminal

/-- Where in a control sequence a reader stands. An escape character starts one. A control sequence
has parameters and a final letter, a device control string has these and a body, and the body of a
command or a string may hold any text. -/
inductive Position where
  | text
  | escape
  | intermediate
  | controlSequence
  | command
  | device
  | deviceParameter
  | deviceIntermediate
  | string
  deriving DecidableEq, Repr

def isBlankControl (c : Char) : Bool :=
  c = '\t' || c = '\n' || c = '\x0c' || c = '\r'

def isShown (c : Char) : Bool :=
  decide (0x80 ≤ c.toNat) || decide (' ' ≤ c ∧ c ≤ '~') || isBlankControl c

namespace Position

def shows : Position → Char → Bool
  | text, c => isShown c
  | escape, c | intermediate, c | controlSequence, c => isBlankControl c
  | _, _ => false

/-- The position after a character that is left out. A new escape starts over, cancel and substitute
break off, and the byte `9C` ends the body of a string also where it is part of a longer character. -/
def next (p : Position) (c : Char) : Position :=
  if c = '\x1b' then escape
  else if c = '\x18' ∨ c = '\x1a' then text
  else match p with
    | text => text
    | escape =>
      if ' ' ≤ c ∧ c ≤ '/' then intermediate
      else if c = '[' then controlSequence
      else if c = ']' then command
      else if c = 'P' then device
      else if c = 'X' ∨ c = '^' ∨ c = '_' then string
      else if '0' ≤ c ∧ c ≤ '~' then text
      else p
    | intermediate => if '0' ≤ c ∧ c ≤ '~' then text else p
    | controlSequence => if '@' ≤ c ∧ c ≤ '~' then text else p
    | command => if c = '\x07' then text else p
    | device =>
      if ' ' ≤ c ∧ c ≤ '/' then deviceIntermediate
      else if '0' ≤ c ∧ c ≤ '?' then deviceParameter
      else if '@' ≤ c ∧ c ≤ '~' then string
      else p
    | deviceParameter =>
      if ' ' ≤ c ∧ c ≤ '/' then deviceIntermediate
      else if '<' ≤ c ∧ c ≤ '~' then string
      else p
    | deviceIntermediate => if '0' ≤ c ∧ c ≤ '~' then string else p
    | string => if (Utf8.encode [c]).contains 0x9C then text else p

end Position

structure Reader where
  position : Position := .text
  isShowing : Bool := false
  deriving DecidableEq, Repr

def Reader.step (r : Reader) (c : Char) : Reader × Bool :=
  if r.isShowing && isShown c then
    ({ r with position := if c.toNat < 0x80 then r.position else .text }, true)
  else if r.position.shows c then ({ r with isShowing := true }, true)
  else ({ position := r.position.next c, isShowing := false }, false)

def Reader.plain (r : Reader) : List Char → List Char
  | [] => []
  | c :: rest =>
    let (r', shown) := r.step c
    if shown then c :: r'.plain rest else r'.plain rest

def plain (s : String) : String :=
  String.ofList (({} : Reader).plain s.toList)

end Terminal

end VoxelOctree
