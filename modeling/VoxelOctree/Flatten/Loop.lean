import VoxelOctree.Flatten
import VoxelOctree.Octree.Loop

namespace VoxelOctree

namespace Flatten

inductive Job where
  | visit (id : Nat) (position : Vec3 Single)
  | finish (id : Nat) (position : Vec3 Single)

structure Progress where
  jobs : List Job
  finished : List UInt32
  records : Array Record

namespace Progress

def push (p : Progress) (finished : List UInt32) (r : Record) : Progress :=
  { p with finished := UInt32.ofNat p.records.size :: finished, records := p.records.push r }

def round (t : Octree) (resolve : Resolver) (p : Progress) : Job → Except Fault Progress
  | .visit id position => do
    let n ← t.node id
    match n.kind with
    | .internal first =>
      let children := Octant.all.map fun k =>
        Job.visit (first + k.val) (position.add (k.offset (n.size / 2)))
      return { p with jobs := children ++ .finish id position :: p.jobs }
    | kind =>
      let terminal : Terminal := ⟨position, n.size, kind.isLeaf⟩
      return p.push p.finished (.terminal position terminal.size (resolve terminal) terminal.isLeaf)
  | .finish id position =>
    match takeChildren? p.finished with
    | some (children, finished) => do
      let n ← t.node id
      return p.push finished (.internal position n.size children)
    | none => .error .subtractOverflow

/-- Works off the jobs, reading the size and the kind of a node when its job comes up; `none` if some are left after so
many rounds. -/
def loop (t : Octree) (resolve : Resolver) : Nat → Progress → Except Fault (Option (List UInt32 × Array Record))
  | _, ⟨[], finished, records⟩ => .ok (some (finished, records))
  | 0, _ => .ok none
  | rounds + 1, ⟨job :: jobs, finished, records⟩ => do
    loop t resolve rounds (← round t resolve ⟨jobs, finished, records⟩ job)

end Progress

end Flatten

end VoxelOctree
