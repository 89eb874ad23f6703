import VoxelOctree.Vec3

/-!
What can go wrong. An error is reported and leaves everything else standing; a fault stops the run
where it happens.
-/

namespace VoxelOctree

def Point.text (p : Point) : String :=
  "[" ++ ", ".intercalate (p.toList.map fun c => toString c.toNat) ++ "]"

structure Drop where
  point : Point
  nodeSize : Nat
  boundary : Nat
  deriving DecidableEq, Repr

def Drop.message (d : Drop) : String :=
  s!"point {d.point.text} lies on split plane {d.boundary} of a size {d.nodeSize} node and was dropped"

structure ArenaFull where
  nodes : Nat
  limit : Nat
  deriving DecidableEq, Repr

def ArenaFull.message (a : ArenaFull) : String :=
  s!"Octree arena is full: {a.nodes} nodes, limit is {a.limit}"

inductive InsertError where
  | dropped (drop : Drop)
  | arenaFull (full : ArenaFull)
  deriving DecidableEq, Repr

def InsertError.message : InsertError → String
  | dropped d => d.message
  | arenaFull a => a.message

inductive Error where
  | inputDecode (reason : String)
  | outputWrite (path : String) (cause : String)
  | serialization (reason : String)
  | invalidRootSize (rootSize : Nat)
  | depthLimitExceeded (rootSize depth maxDepth : Nat)
  | arenaFull (full : ArenaFull)
  deriving DecidableEq, Repr

def Error.message : Error → String
  | inputDecode reason => s!"Failed to decode voxel input: {reason}"
  | outputWrite path cause => s!"Failed to write output to {path}: {cause}"
  | serialization reason => s!"Serialization error: {reason}"
  | invalidRootSize r => s!"Invalid root size {r}: must be a non-zero power of two"
  | depthLimitExceeded r d m => s!"Root size {r} needs depth {d}, limit is {m}"
  | arenaFull a => a.message

def Error.cause? : Error → Option String
  | outputWrite _ cause => some cause
  | _ => none

inductive Fault where
  | addOverflow
  | subtractOverflow
  | indexOutOfBounds (length index : Nat)
  | assertion (left right : Nat)
  | directoryRead
  deriving DecidableEq, Repr

def Fault.message : Fault → String
  | addOverflow => "attempt to add with overflow"
  | subtractOverflow => "attempt to subtract with overflow"
  | indexOutOfBounds n i => s!"index out of bounds: the len is {n} but the index is {i}"
  | assertion l r => s!"assertion `left == right` failed\n  left: {l}\n right: {r}"
  | directoryRead => "Unable to read file: Os \x7b code: 21, kind: IsADirectory, " ++
      "message: \"Is a directory\" \x7d"

inductive Failure where
  | error (e : Error)
  | fault (f : Fault)
  deriving DecidableEq, Repr

instance : Coe Error Failure := ⟨.error⟩

instance : Coe Fault Failure := ⟨.fault⟩

end VoxelOctree
