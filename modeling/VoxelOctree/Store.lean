import VoxelOctree.Path

/-!
Files by location. A location is the list of names that leads to it from the working directory. One
that starts with `..` is outside the working directory, one that starts with a slash is absolute;
of those only the directories themselves, the standard ones and the null device are known.
-/

namespace VoxelOctree

abbrev Location := List Name

inductive Entry where
  | file (content : List UInt8)
  | directory
  deriving DecidableEq, Repr

structure Store where
  files : List (Location × List UInt8)
  directories : List Location
  deriving DecidableEq, Repr

inductive PathError where
  | missing
  | notDirectory
  | isDirectory
  | nameTooLong
  | zeroByte
  deriving DecidableEq, Repr

def PathError.message : PathError → String
  | missing => "No such file or directory (os error 2)"
  | notDirectory => "Not a directory (os error 20)"
  | isDirectory => "Is a directory (os error 21)"
  | nameTooLong => "File name too long (os error 36)"
  | zeroByte => "file name contained an unexpected NUL byte"

inductive ReadError where
  | unopened
  | directory
  deriving DecidableEq, Repr

namespace Store

def root : Name := [Path.slash]

def devices : Name := [0x64, 0x65, 0x76]

def temporary : Name := [0x74, 0x6D, 0x70]

def standardDirectories : List Location :=
  [[root], [root, devices], [root, temporary]]

def nullDevice : Location := [root, devices, [0x6E, 0x75, 0x6C, 0x6C]]

/-- Directories are those listed, those that something stands in, the standard ones, and those that
lead to the working directory. -/
def isDirectory (s : Store) (l : Location) : Bool :=
  l.all (fun name => decide (name = Path.up)) || standardDirectories.contains l ||
  s.directories.any (fun d => l.isPrefixOf d) ||
  s.files.any (fun f => l.isPrefixOf f.1 && decide (l ≠ f.1))

def entry? (s : Store) (l : Location) : Option Entry :=
  if l = nullDevice then some (.file [])
  else match s.files.find? fun f => decide (f.1 = l) with
    | some f => some (.file f.2)
    | none => if s.isDirectory l then some .directory else none

def maxNameLength : Nat := 255

def maxPathLength : Nat := 4095

def step (s : Store) (l : Location) (name : Name) : Except PathError Location :=
  match s.entry? l with
  | none => .error .missing
  | some (.file _) => .error .notDirectory
  | some .directory =>
    if name = Path.here then .ok l
    else if name = Path.up then
      if l = [root] then .ok l
      else if l.all fun n => decide (n = Path.up) then .ok (l ++ [name])
      else .ok l.dropLast
    else if maxNameLength < name.length then .error .nameTooLong
    else .ok (l ++ [name])

def follow (s : Store) (p : Path) (names : List Name) : Except PathError Location :=
  if p.bytes.contains 0 then .error .zeroByte
  else if maxPathLength < p.bytes.length then .error .nameTooLong
  else names.foldlM s.step (if p.isAbsolute then [root] else [])

def resolve (s : Store) (p : Path) : Except PathError Location :=
  s.follow p p.names

def read (s : Store) (p : Path) : Except ReadError (List UInt8) :=
  match s.resolve p with
  | .error _ => .error .unopened
  | .ok l =>
    match s.entry? l with
    | none => .error .unopened
    | some .directory => .error .directory
    | some (.file content) => if p.endsInSlash then .error .unopened else .ok content

def put (s : Store) (l : Location) (content : List UInt8) : Store :=
  if l = nullDevice then s
  else if s.files.any fun f => decide (f.1 = l) then
    { s with files := s.files.map fun f => if f.1 = l then (l, content) else f }
  else { s with files := s.files ++ [(l, content)] }

/-- A path that ends in a slash is refused without a look at its last name; what leads to it has to
be a directory. -/
def write (s : Store) (p : Path) (content : List UInt8) : Except PathError Store := do
  if p.endsInSlash then
    let _ ← s.follow p (p.names.dropLast ++ [Path.here])
    .error .isDirectory
  else
    let l ← s.resolve p
    if s.entry? l = some .directory then .error .isDirectory else return s.put l content

def newerThan (s old : Store) : List (Location × List UInt8) :=
  s.files.filter fun f =>
    decide (old.entry? f.1 ≠ some (.file f.2)) && !(f.1.head? == some Path.up) &&
    !(f.1.head? == some root)

end Store

end VoxelOctree
