import VoxelOctree.Proofs.Octree.Attempts

namespace VoxelOctree

namespace Octree

theorem setKind_self {t : Octree} {id level : Nat} {kind : Kind} (hn : t.nodes[id]? = some ⟨level, kind⟩) :
    t.setKind id kind = t := by
  have hnodes : (t.setKind id kind).nodes = t.nodes := by
    apply Array.ext_getElem?
    intro i
    rw [node_setKind]
    by_cases hi : id = i
    · subst hi
      rw [if_pos rfl, hn]
      rfl
    · rw [if_neg hi]
  obtain ⟨depth, limit, nodes⟩ := t
  unfold setKind at hnodes ⊢
  exact congrArg (Octree.mk depth limit) hnodes

section Unfold

variable {t : Octree} {p : Point} {id level : Nat}

theorem descend_of_none (h : Octant.ofPoint p (2 ^ level) = none) :
    t.descend p id (level + 1) = (t, .error (.dropped ⟨p, 2 ^ (level + 1), 2 ^ level⟩)) := by
  rw [descend, h]

theorem descend_internal {first : Nat} {k : Octant} (hn : t.nodes[id]? = some ⟨level + 1, .internal first⟩)
    (h : Octant.ofPoint p (2 ^ level) = some k) :
    t.descend p id (level + 1) = t.descend p (first + k.val) level := by
  rw [descend, h, kind?_of_node hn]

theorem descend_full {k : Octant} (hn : t.nodes[id]? = some ⟨level + 1, .empty⟩)
    (h : Octant.ofPoint p (2 ^ level) = some k) (hl : t.limit < t.nodes.size + 8) :
    t.descend p id (level + 1) = (t, .error (.arenaFull ⟨t.nodes.size, t.limit⟩)) := by
  rw [descend, h, kind?_of_node hn]
  exact if_neg (Nat.not_le_of_lt hl)

end Unfold

-- Every node above the end of the descent has children afterwards and keeps them, so the way is open; only for want of
-- room can the end be another one later.
theorem Descent.descend_again {p : Point} {t t' later : Octree} {id level : Nat} {trail : List Nat}
    {r : Except InsertError Unit} (hd : Descent p t id level trail t' r) (h : Arena t) (hs : Steps t' later)
    (hr : (∃ full, r = .error (.arenaFull full)) → later = t') : later.descend p id level = (later, r) := by
  induction hd with
  | @reach t id kind hn =>
    have hleaf := (h.mark hn).node_steps hs ((leaf_setKind_iff hn).mpr (.inl ⟨rfl, rfl⟩)) (by simp)
    rw [descend, setKind_self hleaf]
  | plane hn hp => exact descend_of_none hp
  | full hn hp hl =>
    obtain rfl := hr ⟨_, rfl⟩
    exact descend_full hn hp hl
  | down hn hp hd ih =>
    have hi := h.node_steps (hd.steps.trans hs) hn (by simp)
    rw [descend_internal hi hp]
    exact ih h hs hr
  | split hn hp hl hd ih =>
    have ha := h.split hn hl
    have hnew := (internal_subdivide_iff hn).mpr (.inl ⟨rfl, rfl, rfl⟩)
    have hi := ha.node_steps (hd.steps.trans hs) hnew (by simp)
    rw [descend_internal hi hp]
    exact ih ha hs hr

namespace Arena

variable {t : Octree}

theorem insert_of_steps (h : Arena t) {p : Point} {later : Octree} (hs : Steps (t.insert p).1 later)
    (hr : (∃ full, (t.insert p).2 = .error (.arenaFull full)) → later = (t.insert p).1) :
    later.insert p = (later, (t.insert p).2) := by
  obtain ⟨trail, hd, -⟩ := h.insert_spec p
  have hdepth : later.depth = t.depth := by rw [hs.depth_eq, (insert_steps p h).depth_eq]
  rw [insert, hdepth]
  exact hd.descend_again h hs hr

end Arena

def Final (t : Octree) (a : Attempt) : Prop :=
  ∀ later, Steps t later → later.insert a.point = (later, a.result)

theorem Final.steps {t t' : Octree} {a : Attempt} (h : Final t a) (hs : Steps t t') : Final t' a :=
  fun later hl => h later (hs.trans hl)

theorem Arena.final_insert {t : Octree} (h : Arena t) {p : Point} (hf : (t.attempt p).isFull = false) :
    Final (t.insert p).1 (t.attempt p) := by
  intro later hs
  apply h.insert_of_steps hs
  rintro ⟨full, hr⟩
  exact absurd hr ((Attempt.isFull_eq_false_iff _).mp hf full)

structure Recorded (t : Octree) (done : List Attempt) : Prop where
  arena : Arena t
  final : ∀ a ∈ done, a.isFull = false → Final t a

namespace Recorded

variable {t : Octree} {done : List Attempt}

theorem withLimit (h : Recorded t done) (n : Nat) : Recorded (t.withLimit n) done where
  arena := h.arena.withLimit n
  final a ha hf := (h.final a ha hf).steps (.single (.limit t n))

theorem insert (h : Recorded t done) (p : Point) : Recorded (t.insert p).1 (done ++ [t.attempt p]) := by
  have hs := insert_steps p h.arena
  refine ⟨h.arena.steps hs, fun a ha hf => ?_⟩
  rcases List.mem_append.mp ha with ha | ha
  · exact (h.final a ha hf).steps hs
  · obtain rfl := List.mem_singleton.mp ha
    exact h.arena.final_insert hf

theorem exec (h : Arena t) (commands : List Command) : Recorded (t.exec commands) (t.attempts commands) := by
  have hstart : Recorded t [] := ⟨h, by simp⟩
  have hrun := exec_induction (motive := Recorded) (fun _ _ n h => h.withLimit n) (fun _ _ p h => h.insert p) commands
    hstart
  rwa [List.nil_append] at hrun

end Recorded

/-- A second insertion of a point does nothing and ends like the first. After one that did not find the arena full this
stays so for good, whatever is called in between and whatever the limit is then; the same holds of the points of a batch. -/
theorem insert_again {t : Octree} (h : t.Reachable) :
    (∀ p : Point, (t.insert p).1.insert p = ((t.insert p).1, (t.insert p).2)) ∧
      (∀ p : Point, (∀ full, (t.insert p).2 ≠ .error (.arenaFull full)) → ∀ commands,
        let later := (t.insert p).1.exec commands
        later.insert p = (later, (t.insert p).2)) ∧
      ∀ commands, ∀ a ∈ t.attempts commands, (∀ full, a.result ≠ .error (.arenaFull full)) → ∀ more,
        let later := (t.exec commands).exec more
        later.insert a.point = (later, a.result) := by
  have ha := h.arena
  refine ⟨fun p => ?_, fun p hr commands => ?_, fun commands a hmem hr more => ?_⟩
  · exact ha.insert_of_steps .refl fun _ => rfl
  · apply ha.insert_of_steps (exec_steps commands (ha.steps (insert_steps p ha)))
    rintro ⟨full, hf⟩
    exact absurd hf (hr full)
  · have hrun := Recorded.exec ha commands
    exact hrun.final a hmem ((Attempt.isFull_eq_false_iff a).mpr hr) _ (exec_steps more hrun.arena)

theorem insert_again_mixed : ∃ t : Octree, t.Reachable ∧
    (t.insert ⟨3, 3, 3⟩).1.insert ⟨3, 3, 3⟩ = ((t.insert ⟨3, 3, 3⟩).1, .error (.arenaFull ⟨9, 9⟩)) ∧
    (∃ later, (t.insert ⟨3, 1, 3⟩).1.exec [.limit 100, .insertAll [⟨3, 3, 3⟩], .limit 1] = later ∧
      later.nodeCount = 17 ∧ later.insert ⟨3, 1, 3⟩ = (later, .error (.dropped ⟨⟨3, 1, 3⟩, 2, 1⟩))) ∧
    ∃ later, (t.exec [.limit 17, .insertAll [⟨3, 3, 3⟩, ⟨0, 0, 0⟩]]).exec [.limit 0, .insert ⟨0, 0, 0⟩] = later ∧
      later.insert ⟨3, 3, 3⟩ = (later, .ok ()) := by
  have h : (exec ⟨2, maxNodes, #[⟨2, .empty⟩]⟩ [.limit 9]).Reachable := ⟨4, 16, _, _, rfl, rfl⟩
  have hfull : (insert (exec ⟨2, maxNodes, #[⟨2, .empty⟩]⟩ [.limit 9]) ⟨3, 3, 3⟩).2 = .error (.arenaFull ⟨9, 9⟩) := by
    decide
  have hdrop : (insert (exec ⟨2, maxNodes, #[⟨2, .empty⟩]⟩ [.limit 9]) ⟨3, 1, 3⟩).2 =
      .error (.dropped ⟨⟨3, 1, 3⟩, 2, 1⟩) := by decide
  obtain ⟨htwice, hlater, hbatch⟩ := insert_again h
  have hfirst := htwice ⟨3, 3, 3⟩
  have hsecond := hlater ⟨3, 1, 3⟩ (by simp [hdrop]) [.limit 100, .insertAll [⟨3, 3, 3⟩], .limit 1]
  have hthird := hbatch [.limit 17, .insertAll [⟨3, 3, 3⟩, ⟨0, 0, 0⟩]] ⟨⟨3, 3, 3⟩, .ok ()⟩ (by decide) (by simp)
    [.limit 0, .insert ⟨0, 0, 0⟩]
  rw [hfull] at hfirst
  rw [hdrop] at hsecond
  exact ⟨_, h, hfirst, ⟨_, rfl, by decide, hsecond⟩, _, rfl, hthird⟩

end Octree

end VoxelOctree
