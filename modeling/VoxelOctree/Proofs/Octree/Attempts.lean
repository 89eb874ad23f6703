import VoxelOctree.Proofs.Octree.Descent

/-!
The attempts of a run: every point that was tried, with what became of it. They say of each path whether the
node at its end is split or a leaf, up to what a full arena has kept from being done.
-/

namespace VoxelOctree

structure Attempt where
  point : Point
  result : Except InsertError Unit
  deriving DecidableEq, Repr

def Attempt.isFull (a : Attempt) : Bool :=
  match a.result with
  | .error (.arenaFull _) => true
  | _ => false

theorem Attempt.isFull_eq_false_iff (a : Attempt) :
    a.isFull = false ↔ ∀ full, a.result ≠ .error (.arenaFull full) := by
  obtain ⟨p, (drop | full) | ⟨⟩⟩ := a <;> simp [isFull]

namespace Octree

def attempt (t : Octree) (p : Point) : Attempt :=
  ⟨p, (t.insert p).2⟩

end Octree

def Batch.attempts (t : Octree) : List Point → List Attempt
  | [] => []
  | p :: rest =>
    if (t.attempt p).isFull then [t.attempt p] else t.attempt p :: attempts (t.insert p).1 rest

def Command.attempts (t : Octree) : Command → List Attempt
  | limit _ => []
  | insert p => [t.attempt p]
  | insertAll points => Batch.attempts t points

namespace Octree

def attempts (t : Octree) : List Command → List Attempt
  | [] => []
  | c :: rest => c.attempts t ++ (c.apply t).attempts rest

theorem attempts_append (t : Octree) (commands later : List Command) :
    t.attempts (commands ++ later) = t.attempts commands ++ (t.exec commands).attempts later := by
  induction commands generalizing t with
  | nil => rfl
  | cons c rest ih =>
    rw [List.cons_append, attempts, ih, attempts, List.append_assoc]
    rfl

section Induction

variable {motive : Octree → List Attempt → Prop}

theorem run_induction (insert : ∀ t done p, motive t done → motive (t.insert p).1 (done ++ [t.attempt p]))
    (points : List Point) (report : InsertReport) {t : Octree} (done : List Attempt) (h : motive t done) :
    motive (Batch.run t report points).tree (done ++ Batch.attempts t points) := by
  induction points generalizing t done report with
  | nil =>
    rw [Batch.attempts, List.append_nil]
    exact h
  | cons p rest ih =>
    have hp := insert t done p h
    unfold Batch.run Batch.attempts
    rcases hr : t.insert p with ⟨t', (drop | full) | ⟨⟩⟩ <;> rw [hr] at hp <;>
      simp only [attempt, hr, Attempt.isFull, Bool.false_eq_true, ↓reduceIte] at hp ⊢
    · rw [List.append_cons]
      exact ih _ _ hp
    · exact hp
    · rw [List.append_cons]
      exact ih _ _ hp

theorem exec_induction (limit : ∀ t done n, motive t done → motive (t.withLimit n) done)
    (insert : ∀ t done p, motive t done → motive (t.insert p).1 (done ++ [t.attempt p]))
    (commands : List Command) {t : Octree} {done : List Attempt} (h : motive t done) :
    motive (t.exec commands) (done ++ t.attempts commands) := by
  induction commands generalizing t done with
  | nil =>
    rw [attempts, List.append_nil]
    exact h
  | cons c rest ih =>
    rw [attempts, ← List.append_assoc]
    apply ih
    cases c with
    | limit n =>
      rw [Command.attempts, List.append_nil]
      exact limit t done n h
    | insert p => exact insert t done p h
    | insertAll points => exact run_induction insert points .empty done h

end Induction

structure Grown (d : Nat) (t : Octree) (done : List Attempt) : Prop where
  arena : Arena t
  depth_eq : t.depth = d
  leafAt_iff : ∀ path, t.LeafAt path ↔ ∃ a ∈ done, a.result = .ok () ∧ path = a.point.route d
  exists_passes : ∀ path, t.SplitAt path → ∃ a ∈ done, Passes (a.point.route d) path
  splitAt : ∀ a ∈ done, a.isFull = false → ∀ path, Passes (a.point.route d) path → t.SplitAt path
  ok_iff : ∀ a ∈ done, a.isFull = false → (a.result = .ok () ↔ a.point.Kept d)

theorem attempt_ok_iff (t : Octree) (p : Point) (hf : (t.attempt p).isFull = false) :
    (t.attempt p).result = .ok () ↔ p.Kept t.depth := by
  have hk := kept_of_descend p t 0 t.depth
  rw [show t.descend p 0 t.depth = t.insert p from rfl] at hk
  obtain ⟨hok, hdrop⟩ := hk
  rcases hr : (t.insert p).2 with (drop | full) | ⟨⟩
  · simp [attempt, hr, hdrop drop hr]
  · simp [attempt, hr, Attempt.isFull] at hf
  · simp [attempt, hr, hok hr]

@[simp] theorem follow_withLimit (t : Octree) (n id : Nat) (path : List Nat) :
    (t.withLimit n).follow id path = t.follow id path := by
  induction path generalizing id with
  | nil => rfl
  | cons slot rest ih => simp only [follow, kind?, nodes_withLimit, ih]

@[simp] theorem leafAt_withLimit (t : Octree) (n : Nat) (path : List Nat) :
    (t.withLimit n).LeafAt path ↔ t.LeafAt path := by
  simp only [LeafAt, follow_withLimit, nodes_withLimit]

@[simp] theorem splitAt_withLimit (t : Octree) (n : Nat) (path : List Nat) :
    (t.withLimit n).SplitAt path ↔ t.SplitAt path := by
  simp only [SplitAt, follow_withLimit, nodes_withLimit]

namespace Grown

variable {d : Nat} {t : Octree} {done : List Attempt}

theorem create {rootSize maxDepth : Nat} (h : Octree.create rootSize maxDepth = .ok t) : Grown t.depth t [] where
  arena := Arena.create h
  depth_eq := rfl
  leafAt_iff path := by
    simpa using not_leafAt_create h t.limit path
  exists_passes := by
    rintro path ⟨id, level, first, -, hn⟩
    cases congrArg Node.kind (node_create h hn)
  splitAt := by simp
  ok_iff := by simp

theorem withLimit (h : Grown d t done) (n : Nat) : Grown d (t.withLimit n) done where
  arena := h.arena.withLimit n
  depth_eq := h.depth_eq
  leafAt_iff path := (leafAt_withLimit t n path).trans (h.leafAt_iff path)
  exists_passes path hp := h.exists_passes path ((splitAt_withLimit t n path).mp hp)
  splitAt a ha hf path hp := (splitAt_withLimit t n path).mpr (h.splitAt a ha hf path hp)
  ok_iff := h.ok_iff

theorem insert (h : Grown d t done) (p : Point) : Grown d (t.insert p).1 (done ++ [t.attempt p]) := by
  obtain ⟨trail, hd, hsplit, hleaf⟩ := h.arena.insert_spec p
  have hdepth := h.depth_eq
  subst hdepth
  constructor
  · exact h.arena.steps hd.steps
  · exact hd.steps.depth_eq
  · intro path
    rw [hleaf, h.leafAt_iff]
    simp [or_and_right, exists_or, attempt]
  · intro path hp
    rcases (hsplit path).mp hp with hp | hp
    · obtain ⟨a, ha, hp⟩ := h.exists_passes path hp
      exact ⟨a, List.mem_append_left _ ha, hp⟩
    · exact ⟨t.attempt p, by simp, hp.mono hd.trail_prefix⟩
  · intro a ha hf path hp
    rw [hsplit]
    rcases List.mem_append.mp ha with ha | ha
    · exact .inl (h.splitAt a ha hf path hp)
    · obtain rfl := List.mem_singleton.mp ha
      rw [hd.trail_eq_route ((Attempt.isFull_eq_false_iff _).mp hf)]
      exact .inr hp
  · intro a ha hf
    rcases List.mem_append.mp ha with ha | ha
    · exact h.ok_iff a ha hf
    · obtain rfl := List.mem_singleton.mp ha
      exact attempt_ok_iff t p hf

theorem exec {start : Octree} {rootSize maxDepth : Nat} (h : Octree.create rootSize maxDepth = .ok start)
    (commands : List Command) : Grown start.depth (start.exec commands) (start.attempts commands) := by
  have hg := exec_induction (motive := Grown start.depth) (fun _ _ n h => h.withLimit n) (fun _ _ p h => h.insert p)
    commands (Grown.create h)
  rwa [List.nil_append] at hg

end Grown

theorem Reachable.leafAt_of_attempt {t : Octree} (h : t.Reachable) (commands : List Command) {a : Attempt}
    (ha : a ∈ t.attempts commands) (hr : a.result = .ok ()) : (t.exec commands).LeafAt (a.point.route t.depth) := by
  obtain ⟨rootSize, maxDepth, start, before, hs, rfl⟩ := h
  have hg := Grown.exec hs (before ++ commands)
  have hmem : a ∈ start.attempts (before ++ commands) := by
    rw [attempts_append]
    exact List.mem_append_right _ ha
  have hexec : start.exec (before ++ commands) = (start.exec before).exec commands := List.foldl_append
  rw [(Grown.exec hs before).depth_eq, ← hexec, hg.leafAt_iff]
  exact ⟨a, hmem, hr, rfl⟩

end Octree

end VoxelOctree
