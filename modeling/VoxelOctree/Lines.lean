namespace VoxelOctree

namespace Lines

def split : List Char → List (List Char)
  | [] => [[]]
  | c :: rest =>
    if c = '\n' then [] :: split rest
    else match split rest with
      | line :: lines => (c :: line) :: lines
      | [] => [[c]]

def trim (line : List Char) : List Char :=
  if line.getLast? = some '\r' then line.dropLast else line

def ofString (s : String) : List String :=
  (split s.toList).map fun line => String.ofList (trim line)

end Lines

end VoxelOctree
