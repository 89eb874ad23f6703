import VoxelOctree.Octree.Insert

namespace VoxelOctree

namespace Octree

def node (t : Octree) (id : Nat) : Except Fault Node :=
  match t.nodes[id]? with
  | some n => .ok n
  | none => .error (.indexOutOfBounds t.nodes.size id)

def grow (t : Octree) (id : Nat) (n : Node) : Except Fault (Octree × Nat) :=
  let first := (UInt32.ofNat t.nodes.size).toNat
  if first + 7 < UInt32.size then
    let grown : Octree := { t with nodes := t.nodes ++ Array.replicate 8 ⟨n.level - 1, .empty⟩ }
    .ok (grown.setKind id (.internal first), first)
  else .error .addOverflow

inductive Round where
  | next (t : Octree) (id : Nat)
  | done (t : Octree) (result : Except InsertError Unit)

def round (t : Octree) (p : Point) (id : Nat) : Except Fault Round := do
  let n ← t.node id
  if n.size = 1 then
    return .done (t.setKind id .leaf) (.ok ())
  match Octant.ofPoint p (n.size / 2) with
  | none => return .done t (.error (.dropped ⟨p, n.size, n.size / 2⟩))
  | some k =>
    match n.kind with
    | .internal first => return .next t (first + k.val)
    | _ =>
      if t.limit < t.nodes.size + 8 then
        return .done t (.error (.arenaFull ⟨t.nodes.size, t.limit⟩))
      let (grown, first) ← t.grow id n
      return .next grown (first + k.val)

/-- Takes a point on from a node; `none` if it is still on its way after so many rounds. -/
def loop (t : Octree) (p : Point) (id : Nat) : Nat → Except Fault (Option (Octree × Except InsertError Unit))
  | 0 => .ok none
  | rounds + 1 =>
    match t.round p id with
    | .error f => .error f
    | .ok (.done t' r) => .ok (some (t', r))
    | .ok (.next t' id') => t'.loop p id' rounds

end Octree

def Batch.loop (rounds : Nat) (t : Octree) (report : InsertReport) : List Point → Except Fault (Option Batch)
  | [] => .ok (some ⟨t, report, none⟩)
  | p :: rest =>
    match t.loop p 0 rounds with
    | .error f => .error f
    | .ok none => .ok none
    | .ok (some (t', .ok ())) => loop rounds t' { report with inserted := report.inserted + 1 } rest
    | .ok (some (t', .error (.dropped d))) => loop rounds t' { report with dropped := report.dropped.push d } rest
    | .ok (some (t', .error (.arenaFull a))) => .ok (some ⟨t', report, some a⟩)

end VoxelOctree
