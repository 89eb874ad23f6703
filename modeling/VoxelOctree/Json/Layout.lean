namespace VoxelOctree

structure Layout where
  gap : Nat → List Char
  space : List Char

namespace Layout

def compact : Layout where
  gap _ := []
  space := []

def pretty : Layout where
  gap depth := '\n' :: List.replicate (2 * depth) ' '
  space := [' ']

def choose (isPretty : Bool) : Layout :=
  if isPretty then pretty else compact

abbrev Item := Nat → List Char

def atom (text : List Char) : Item :=
  fun _ => text

def items (l : Layout) (depth : Nat) : List Item → List Char
  | [] => []
  | [item] => l.gap depth ++ item depth
  | item :: rest => l.gap depth ++ item depth ++ ',' :: l.items depth rest

def enclosed (l : Layout) (opening closing : Char) (body : List Item) : Item := fun depth =>
  if body.isEmpty then [opening, closing]
  else opening :: (l.items (depth + 1) body ++ l.gap depth ++ [closing])

def array (l : Layout) (body : List Item) : Item :=
  l.enclosed '[' ']' body

def field (l : Layout) (name : List Char) (value : Item) : Item := fun depth =>
  '"' :: (name ++ ['"', ':'] ++ l.space ++ value depth)

def object (l : Layout) (fields : List (List Char × Item)) : Item :=
  l.enclosed '\x7b' '\x7d' (fields.map fun f => l.field f.1 f.2)

end Layout

end VoxelOctree
