import VoxelOctree.Log
import VoxelOctree.Material
import VoxelOctree.Octree

/-!
Flattening an octree into records. The records of a node's children, in slot order, stand before the
record of the node, so the root comes last.
-/

namespace VoxelOctree

structure RecordCounts where
  internal : Nat
  leaf : Nat
  empty : Nat
  deriving DecidableEq, Repr

namespace RecordCounts

def total (c : RecordCounts) : Nat :=
  c.internal + c.leaf + c.empty

def add (c : RecordCounts) (r : Record) : RecordCounts :=
  if r.isLeaf then { c with leaf := c.leaf + 1 }
  else if r.isEmpty then { c with empty := c.empty + 1 }
  else { c with internal := c.internal + 1 }

def ofRecords (records : Array Record) : RecordCounts :=
  records.foldl add ⟨0, 0, 0⟩

def text (c : RecordCounts) : String :=
  s!"CompileStats \x7b internal: {c.internal}, leaf: {c.leaf}, empty: {c.empty} \x7d"

end RecordCounts

namespace Flatten

inductive Task where
  | visit (id level : Nat) (position : Vec3 Single)
  | finish (level : Nat) (position : Vec3 Single)
  deriving DecidableEq, Repr

def visitWeight : Nat → Nat
  | 0 => 1
  | level + 1 => 8 * visitWeight level + 2

def Task.weight : Task → Nat
  | visit _ level _ => visitWeight level
  | finish .. => 1

def weight : List Task → Nat
  | [] => 0
  | task :: tasks => task.weight + weight tasks

def branch (first level : Nat) (position : Vec3 Single) : List Task :=
  Octant.all.map (fun k => .visit (first + k.val) level (position.add (k.offset (2 ^ level)))) ++
    [.finish (level + 1) position]

theorem visitWeight_pos (level : Nat) : 0 < visitWeight level := by
  cases level <;> simp [visitWeight]

theorem weight_branch_lt (first level id : Nat) (position : Vec3 Single) (tasks : List Task) :
    weight (branch first level position ++ tasks) <
      weight (.visit id (level + 1) position :: tasks) := by
  simp [weight, branch, Octant.all, Task.weight, visitWeight]
  omega

def takeChildren? : List UInt32 → Option (Vector UInt32 8 × List UInt32)
  | h :: g :: f :: e :: d :: c :: b :: a :: finished => some (#v[a, b, c, d, e, f, g, h], finished)
  | _ => none

/-- Works off the tasks in order. `finished` holds the positions of written nodes whose parents are
not written yet, the last one first. -/
def walk (t : Octree) (resolve : Resolver) (tasks : List Task) (finished : List UInt32)
    (records : Array Record) : Except Fault (List UInt32 × Array Record) :=
  match tasks with
  | [] => .ok (finished, records)
  | .visit id level position :: tasks =>
    match t.kind? id, level with
    | none, _ => .error (.indexOutOfBounds t.nodes.size id)
    | some (.internal first), level + 1 =>
      walk t resolve (branch first level position ++ tasks) finished records
    | some kind, level =>
      let terminal : Terminal := ⟨position, 2 ^ level, kind.isLeaf⟩
      walk t resolve tasks (UInt32.ofNat records.size :: finished)
        (records.push (.terminal position terminal.size (resolve terminal) terminal.isLeaf))
  | .finish level position :: tasks =>
    match takeChildren? finished with
    | some (children, finished) =>
      walk t resolve tasks (UInt32.ofNat records.size :: finished)
        (records.push (.internal position (2 ^ level) children))
    | none => .error .subtractOverflow
termination_by weight tasks
decreasing_by
  · exact weight_branch_lt ..
  · have := visitWeight_pos level
    simp [weight, Task.weight]
    omega
  · simp [weight, Task.weight]

def subtree (t : Octree) (resolve : Resolver) (id level : Nat) (position : Vec3 Single)
    (records : Array Record) : Except Fault (UInt32 × Array Record) := do
  let (finished, records) ← walk t resolve [.visit id level position] [] records
  match finished with
  | [root] => return (root, records)
  | _ => .error (.assertion finished.length 1)

/-- Appends a branch that was written on its own, its links moved to where it now stands, and its root
to the links of the parent. -/
def join (done : List UInt32 × Array Record) (part : UInt32 × Array Record) :
    Except Fault (List UInt32 × Array Record) := do
  let offset := UInt32.ofNat done.2.size
  let moved ← part.2.mapM (Record.rebase offset)
  if part.1.toNat + offset.toNat < UInt32.size then
    return (done.1 ++ [part.1 + offset], done.2 ++ moved)
  else .error .addOverflow

end Flatten

namespace Octree

def flatten (t : Octree) (resolve : Resolver) (anchor : Vec3 Single) : Except Fault (Array Record) := do
  let (root, records) ← Flatten.subtree t resolve 0 t.depth anchor #[]
  if records.isEmpty then .error .subtractOverflow
  else if root.toNat = records.size - 1 then return records
  else .error (.assertion root.toNat (records.size - 1))

def flattenByOctant (t : Octree) (resolve : Resolver) (anchor : Vec3 Single) :
    Except Fault (Array Record) :=
  match t.nodes[0]? with
  | some (Node.mk (level + 1) (.internal first)) => do
    let parts ← Octant.all.mapM fun k =>
      Flatten.subtree t resolve (first + k.val) level (anchor.add (k.offset (2 ^ level))) #[]
    let (links, records) ← parts.foldlM Flatten.join ([], #[])
    let children := Vector.ofFn fun k : Fin 8 => links.getD k.val Record.nullChild
    return records.push (.internal anchor (2 ^ (level + 1)) children)
  | _ => t.flatten resolve anchor

def flattenWith (t : Octree) (isParallel : Bool) (resolve : Resolver) (anchor : Vec3 Single) :
    Except Fault (Array Record) :=
  if isParallel then t.flattenByOctant resolve anchor else t.flatten resolve anchor

def flattenLog (t : Octree) (isParallel : Bool) (records : Array Record) : Log :=
  let isSplit := match t.kind? 0 with
    | some (.internal _) => true
    | _ => false
  let manner := if isParallel && isSplit then " in parallel" else ""
  [⟨.debug, "fastvox_octree::compile",
    s!"Compiled {records.size} records{manner}: {(RecordCounts.ofRecords records).text}"⟩]

end Octree

end VoxelOctree
