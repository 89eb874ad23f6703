import VoxelOctree.Json.Layout
import VoxelOctree.Record
import VoxelOctree.Single.Shortest

namespace VoxelOctree

inductive MaterialField where
  | emittance
  | reflectance
  | roughness
  | opacity
  deriving DecidableEq, Repr

namespace MaterialField

def all : List MaterialField :=
  [emittance, reflectance, roughness, opacity]

def name : MaterialField → List Char
  | emittance => ['e', 'm', 'm', 'i', 't', 'a', 'n', 'c', 'e']
  | reflectance => ['r', 'e', 'f', 'l', 'e', 'c', 't', 'a', 'n', 'c', 'e']
  | roughness => ['r', 'o', 'u', 'g', 'h', 'n', 'e', 's', 's']
  | opacity => ['o', 'p', 'a', 'c', 'i', 't', 'y']

end MaterialField

inductive RecordField where
  | position
  | orientation
  | size
  | material
  | children
  | isLeaf
  | isEmpty
  deriving DecidableEq, Repr

namespace RecordField

def all : List RecordField :=
  [position, orientation, size, material, children, isLeaf, isEmpty]

def name : RecordField → List Char
  | position => ['p', 'o', 's']
  | orientation => ['r', 'o', 't']
  | size => ['s', 'i', 'z', 'e']
  | material => ['m', 'a', 't', 'e', 'r', 'i', 'a', 'l']
  | children => ['c', 'h', 'i', 'l', 'd', 's']
  | isLeaf => ['i', 's', '_', 'l', 'e', 'a', 'f']
  | isEmpty => ['i', 's', '_', 'n', 'o', 'n', 'e']

end RecordField

def Record.numberStyle : DecimalStyle := ⟨-6, 12⟩

def Single.json (a : Single) : List Char :=
  if a.isFinite then a.text Record.numberStyle else ['n', 'u', 'l', 'l']

namespace Layout

def number (a : Single) : Item :=
  atom a.json

def natural (n : Nat) : Item :=
  atom (Nat.toDigits 10 n)

def flag (b : Bool) : Item :=
  natural (if b then 1 else 0)

def vector (l : Layout) (v : Vec3 Single) : Item :=
  l.array (v.toList.map number)

def material (l : Layout) (m : Material) : Item :=
  l.object (MaterialField.all.map fun f => (f.name, match f with
    | .emittance => l.vector m.emittance
    | .reflectance => l.vector m.reflectance
    | .roughness => number m.roughness
    | .opacity => number m.opacity))

def record (l : Layout) (r : Record) : Item :=
  l.object (RecordField.all.map fun f => (f.name, match f with
    | .position => l.vector r.position
    | .orientation => l.array (r.orientation.toList.map l.vector)
    | .size => number r.size
    | .material => l.material r.material
    | .children => l.array (r.children.toList.map fun c => natural c.toNat)
    | .isLeaf => flag r.isLeaf
    | .isEmpty => flag r.isEmpty))

def records (l : Layout) (rs : List Record) : List Char :=
  l.array (rs.map l.record) 0

end Layout

end VoxelOctree
