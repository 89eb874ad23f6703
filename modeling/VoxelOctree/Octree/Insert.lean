import VoxelOctree.Log
import VoxelOctree.Octree

/-!
Insertion. A point goes down from the root, at each node of size `2 * b` into the octant on its side
of the planes at `b`, and makes the unit node that it reaches a leaf. Nodes are split on the way when
they have no children yet.
-/

namespace VoxelOctree

namespace Octree

def setKind (t : Octree) (id : Nat) (kind : Kind) : Octree :=
  { t with nodes := t.nodes.modify id fun n => { n with kind } }

def subdivide (t : Octree) (id level : Nat) : Octree :=
  { t with nodes := (t.nodes.modify id fun n => { n with kind := .internal t.nodes.size }) ++
      Array.replicate 8 ⟨level, .empty⟩ }

/-- Takes a point down from a node of the given level. What was split on the way stays split when the
point is refused further down. -/
def descend (t : Octree) (p : Point) (id : Nat) : Nat → Octree × Except InsertError Unit
  | 0 => (t.setKind id .leaf, .ok ())
  | level + 1 =>
    match Octant.ofPoint p (2 ^ level) with
    | none => (t, .error (.dropped ⟨p, 2 ^ (level + 1), 2 ^ level⟩))
    | some k =>
      match t.kind? id with
      | some (.internal first) => t.descend p (first + k.val) level
      | _ =>
        if t.nodes.size + 8 ≤ t.limit then
          (t.subdivide id level).descend p (t.nodes.size + k.val) level
        else (t, .error (.arenaFull ⟨t.nodes.size, t.limit⟩))

def insert (t : Octree) (p : Point) : Octree × Except InsertError Unit :=
  t.descend p 0 t.depth

end Octree

structure InsertReport where
  inserted : Nat
  dropped : Array Drop
  deriving DecidableEq, Repr

namespace InsertReport

def empty : InsertReport := ⟨0, #[]⟩

def total (r : InsertReport) : Nat :=
  r.inserted + r.dropped.size

end InsertReport

structure Batch where
  tree : Octree
  report : InsertReport
  full : Option ArenaFull
  deriving DecidableEq, Repr

namespace Batch

def run (t : Octree) (report : InsertReport) : List Point → Batch
  | [] => ⟨t, report, none⟩
  | p :: rest =>
    match t.insert p with
    | (t', .ok ()) => run t' { report with inserted := report.inserted + 1 } rest
    | (t', .error (.dropped d)) => run t' { report with dropped := report.dropped.push d } rest
    | (t', .error (.arenaFull a)) => ⟨t', report, some a⟩

def outcome (b : Batch) : Except Error InsertReport :=
  match b.full with
  | some a => .error (.arenaFull a)
  | none => .ok b.report

def target : String := "fastvox_octree::svo"

def log (b : Batch) : Log :=
  let drops := b.report.dropped.toList.map fun d => ⟨.debug, target, d.message⟩
  let count := b.report.dropped.size
  let warning := if count = 0 then [] else [⟨.warn, target,
    s!"{count} of {b.report.total} points lie on a split plane and were dropped"⟩]
  let summary := ⟨.debug, target, s!"Octree holds {b.tree.nodeCount} nodes " ++
    s!"({b.tree.leafCount} leaves) after {b.report.inserted} insertions"⟩
  if b.full.isSome then drops else drops ++ warning ++ [summary]

end Batch

namespace Octree

def insertAll (t : Octree) (points : List Point) : Batch :=
  Batch.run t .empty points

end Octree

end VoxelOctree
