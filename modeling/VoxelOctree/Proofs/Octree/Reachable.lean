import VoxelOctree.Proofs.Octree.Arena

namespace VoxelOctree

theorem Batch.outcome_cases (b : Batch) :
    (∃ a, b.outcome = .error (.arenaFull a)) ∨ b.outcome = .ok b.report := by
  unfold outcome
  cases b.full with
  | none => exact .inr rfl
  | some a => exact .inl ⟨a, rfl⟩

theorem Batch.eq_report {b : Batch} {report : InsertReport} (h : b.outcome = .ok report) :
    b.full = none ∧ b.report = report := by
  unfold outcome at h
  cases hf : b.full with
  | none =>
    rw [hf] at h
    exact ⟨rfl, Except.ok.inj h⟩
  | some a =>
    rw [hf] at h
    cases h

inductive Command where
  | limit (n : Nat)
  | insert (p : Point)
  | insertAll (points : List Point)
  deriving DecidableEq, Repr

def Command.apply (t : Octree) : Command → Octree
  | limit n => t.withLimit n
  | insert p => (t.insert p).1
  | insertAll points => (t.insertAll points).tree

namespace Octree

attribute [local irreducible] setKind subdivide

def exec (t : Octree) (commands : List Command) : Octree :=
  commands.foldl Command.apply t

def Reachable (t : Octree) : Prop :=
  ∃ rootSize maxDepth : UInt32, ∃ start : Octree, ∃ commands : List Command,
    create rootSize.toNat maxDepth.toNat = .ok start ∧ start.exec commands = t

theorem descend_steps (p : Point) {t : Octree} (h : Arena t) {id level : Nat} {kind : Kind}
    (hn : t.nodes[id]? = some ⟨level, kind⟩) : Steps t (t.descend p id level).1 := by
  induction level generalizing t id kind with
  | zero => exact .single (.mark t id kind hn)
  | succ level ih =>
    unfold descend
    cases Octant.ofPoint p (2 ^ level) with
    | none => exact .refl
    | some k =>
      rw [kind?_of_node hn]
      cases kind with
      | internal first =>
        obtain ⟨kind, hc⟩ := h.child hn k
        exact ih h hc
      | leaf => exact absurd (h.leaf hn) (Nat.succ_ne_zero level)
      | empty =>
        by_cases hl : t.nodes.size + 8 ≤ t.limit
        · simp only [hl, ↓reduceIte]
          have hs : Step t (t.subdivide id level) := .split t id level hn hl
          exact .head hs (ih (h.step hs) (node_subdivide_new t id level k))
        · simp only [hl, ↓reduceIte]
          exact .refl

theorem insert_steps (p : Point) {t : Octree} (h : Arena t) : Steps t (t.insert p).1 := by
  obtain ⟨kind, hr⟩ := h.root
  exact descend_steps p h hr

theorem run_steps (points : List Point) (report : InsertReport) {t : Octree} (h : Arena t) :
    Steps t (Batch.run t report points).tree := by
  induction points generalizing t report with
  | nil => exact .refl
  | cons p rest ih =>
    have hs := insert_steps p h
    unfold Batch.run
    rcases hp : t.insert p with ⟨t', (drop | full) | ⟨⟩⟩ <;> rw [hp] at hs
    · exact hs.trans (ih _ (h.steps hs))
    · exact hs
    · exact hs.trans (ih _ (h.steps hs))

theorem apply_steps (c : Command) {t : Octree} (h : Arena t) : Steps t (c.apply t) := by
  cases c with
  | limit n => exact .single (.limit t n)
  | insert p => exact insert_steps p h
  | insertAll points => exact run_steps points .empty h

theorem exec_steps (commands : List Command) {t : Octree} (h : Arena t) : Steps t (t.exec commands) := by
  induction commands generalizing t with
  | nil => exact .refl
  | cons c rest ih =>
    have hs := apply_steps c h
    exact hs.trans (ih (h.steps hs))

theorem Reachable.arena {t : Octree} (h : t.Reachable) : Arena t := by
  obtain ⟨rootSize, maxDepth, start, commands, hs, rfl⟩ := h
  have ha := Arena.create hs
  exact ha.steps (exec_steps commands ha)

theorem Reachable.depth_lt {t : Octree} (h : t.Reachable) : t.depth < 32 := by
  obtain ⟨rootSize, maxDepth, start, commands, hs, rfl⟩ := h
  rw [(exec_steps commands (Arena.create hs)).depth_eq]
  exact depth_lt_of_create hs rootSize.toNat_lt_size

end Octree

end VoxelOctree
