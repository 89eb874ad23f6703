import Mathlib.Data.List.Forall2
import VoxelOctree.Flatten.Loop
import VoxelOctree.Proofs.Flatten.Walk
import VoxelOctree.Proofs.Octree.Loop

namespace VoxelOctree

namespace Flatten

variable {t : Octree} {resolve : Resolver} {id level : Nat} {kind : Kind}

/-- A job and a task for one node, the task with the level that the node has. -/
inductive Job.Matches (t : Octree) : Job → Task → Prop
  | visit {id level : Nat} {kind : Kind} (hn : t.nodes[id]? = some ⟨level, kind⟩) (position : Vec3 Single) :
      Matches t (.visit id position) (.visit id level position)
  | finish {id level : Nat} {kind : Kind} (hn : t.nodes[id]? = some ⟨level, kind⟩) (position : Vec3 Single) :
      Matches t (.finish id position) (.finish level position)

theorem Job.Matches.weight_pos {job : Job} {task : Task} (h : job.Matches t task) : 0 < task.weight := by
  cases h with
  | visit => exact visitWeight_pos _
  | finish => exact Nat.one_pos

theorem matches_branch (h : t.Arena) {first : Nat} (hn : t.nodes[id]? = some ⟨level + 1, .internal first⟩)
    (position : Vec3 Single) :
    List.Forall₂ (Job.Matches t)
      (Octant.all.map (fun k => .visit (first + k.val) (position.add (k.offset (2 ^ level)))) ++ [.finish id position])
      (branch first level position) := by
  refine List.rel_append ?_ (.cons (.finish hn position) .nil)
  rw [List.forall₂_map_left_iff, List.forall₂_map_right_iff, List.forall₂_same]
  intro k _
  obtain ⟨kind, hc⟩ := h.child hn k
  exact .visit hc _

namespace Progress

variable {jobs : List Job} {finished : List UInt32} {records : Array Record} {position : Vec3 Single}

theorem round_terminal (hn : t.nodes[id]? = some ⟨level, kind⟩) (hk : ∀ first, kind ≠ .internal first) :
    round t resolve ⟨jobs, finished, records⟩ (.visit id position) =
      .ok ⟨jobs, UInt32.ofNat records.size :: finished, records.push
        (.terminal position (2 ^ level) (resolve ⟨position, 2 ^ level, kind.isLeaf⟩) kind.isLeaf)⟩ := by
  simp only [round, Octree.node_eq_ok hn, bind, Except.bind]
  cases kind with
  | internal first => exact absurd rfl (hk first)
  | empty => rfl
  | leaf => rfl

theorem round_internal {first : Nat} (hn : t.nodes[id]? = some ⟨level + 1, .internal first⟩) :
    round t resolve ⟨jobs, finished, records⟩ (.visit id position) =
      .ok ⟨(Octant.all.map (fun k => .visit (first + k.val) (position.add (k.offset (2 ^ level)))) ++
        [.finish id position]) ++ jobs, finished, records⟩ := by
  simp only [round, Octree.node_eq_ok hn, bind, Except.bind, Node.half_size, List.append_assoc, List.singleton_append]
  rfl

theorem round_finish (hn : t.nodes[id]? = some ⟨level, kind⟩) :
    (∃ f, round t resolve ⟨jobs, finished, records⟩ (.finish id position) = .error f ∧
      ∀ tasks, walk t resolve (.finish level position :: tasks) finished records = .error f) ∨
    ∃ left r, round t resolve ⟨jobs, finished, records⟩ (.finish id position) =
        .ok ⟨jobs, UInt32.ofNat records.size :: left, records.push r⟩ ∧
      ∀ tasks, walk t resolve (.finish level position :: tasks) finished records =
        walk t resolve tasks (UInt32.ofNat records.size :: left) (records.push r) := by
  cases hc : takeChildren? finished with
  | none =>
    refine .inl ⟨.subtractOverflow, ?_, fun tasks => ?_⟩
    · simp only [round, hc]
    · rw [walk.eq_def]
      simp only [hc]
  | some split =>
    obtain ⟨children, left⟩ := split
    refine .inr ⟨left, .internal position (2 ^ level) children, ?_, fun tasks => ?_⟩
    · simp only [round, hc, Octree.node_eq_ok hn]
      rfl
    · rw [walk.eq_def]
      simp only [hc]

theorem round_matches (h : t.Arena) {job : Job} {task : Task} {tasks : List Task} (hm : job.Matches t task)
    (hj : List.Forall₂ (Job.Matches t) jobs tasks) :
    (∃ f, round t resolve ⟨jobs, finished, records⟩ job = .error f ∧
      walk t resolve (task :: tasks) finished records = .error f) ∨
    ∃ jobs' tasks' finished' records', round t resolve ⟨jobs, finished, records⟩ job = .ok ⟨jobs', finished', records'⟩ ∧
      List.Forall₂ (Job.Matches t) jobs' tasks' ∧ weight tasks' < weight (task :: tasks) ∧
      walk t resolve (task :: tasks) finished records = walk t resolve tasks' finished' records' := by
  have hlt : weight tasks < weight (task :: tasks) := Nat.lt_add_of_pos_left hm.weight_pos
  cases hm with
  | @visit id level kind hn position =>
    right
    by_cases hk : ∃ first, kind = .internal first
    · obtain ⟨first, rfl⟩ := hk
      obtain ⟨below, rfl⟩ : ∃ below, level = below + 1 := ⟨level - 1, by have := (h.block hn).1; omega⟩
      exact ⟨_, _, _, _, round_internal hn, List.rel_append (matches_branch h hn position) hj,
        weight_branch_lt .., walk_internal resolve hn ..⟩
    · have hk' : ∀ first, kind ≠ .internal first := fun first he => hk ⟨first, he⟩
      exact ⟨_, _, _, _, round_terminal hn hk', hj, hlt, walk_terminal resolve hn hk' ..⟩
  | @finish id level kind hn position =>
    rcases round_finish hn with ⟨f, hround, hwalk⟩ | ⟨left, r, hround, hwalk⟩
    · exact .inl ⟨f, hround, hwalk tasks⟩
    · exact .inr ⟨_, _, _, _, hround, hj, hlt, hwalk tasks⟩

theorem loop_eq (h : t.Arena) {tasks : List Task} (hj : List.Forall₂ (Job.Matches t) jobs tasks) {rounds : Nat}
    (hr : weight tasks ≤ rounds) :
    loop t resolve rounds ⟨jobs, finished, records⟩ = (walk t resolve tasks finished records).map some := by
  induction rounds generalizing jobs tasks finished records with
  | zero =>
    cases hj with
    | nil =>
      rw [loop, walk.eq_def]
      rfl
    | cons hm _ => exact absurd (Nat.le_trans (Nat.le_add_right _ _) hr) (Nat.not_le_of_lt hm.weight_pos)
  | succ rounds ih =>
    cases hj with
    | nil =>
      rw [loop, walk.eq_def]
      rfl
    | cons hm hj =>
      rcases round_matches h hm hj with ⟨f, hround, hwalk⟩ | ⟨jobs', tasks', finished', records', hround, hj', hlt, hwalk⟩
      · rw [loop, hround, hwalk]
        rfl
      · rw [loop, hround, hwalk]
        exact ih hj' (by omega)

theorem loop_visit (h : t.Arena) (hn : t.nodes[id]? = some ⟨level, kind⟩) {rounds : Nat} (hr : visitWeight level ≤ rounds) :
    loop t resolve rounds ⟨[.visit id position], finished, records⟩ =
      (walk t resolve [.visit id level position] finished records).map some :=
  loop_eq h (.cons (.visit hn position) .nil) hr

end Progress

end Flatten

end VoxelOctree
