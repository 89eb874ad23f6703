import VoxelOctree.Utf8

namespace VoxelOctree

abbrev Name := List UInt8

structure Path where
  bytes : List UInt8
  deriving DecidableEq, Repr

namespace Path

def slash : UInt8 := 0x2F

def here : Name := [0x2E]

def up : Name := [0x2E, 0x2E]

def ofString (s : String) : Path :=
  ⟨Utf8.encode s.toList⟩

def isText (p : Path) : Bool :=
  Utf8.isValid p.bytes

def text (p : Path) : String :=
  String.ofList (Utf8.lossy p.bytes)

def splitNames : List UInt8 → List Name
  | [] => [[]]
  | b :: rest =>
    if b = slash then [] :: splitNames rest
    else match splitNames rest with
      | name :: names => (b :: name) :: names
      | [] => [[b]]

def names (p : Path) : List Name :=
  (splitNames p.bytes).filter fun name => !name.isEmpty

def isAbsolute (p : Path) : Bool :=
  decide (p.bytes.head? = some slash)

def endsInSlash (p : Path) : Bool :=
  decide (p.bytes.getLast? = some slash)

end Path

end VoxelOctree
