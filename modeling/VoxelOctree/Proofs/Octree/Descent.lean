import VoxelOctree.Proofs.Octree.Leaves

namespace VoxelOctree

theorem Node.half_size (level : Nat) (kind : Kind) : Node.size ⟨level + 1, kind⟩ / 2 = 2 ^ level := by
  rw [size, Nat.pow_succ, Nat.mul_div_cancel _ Nat.zero_lt_two]

theorem Node.two_le_size {n : Node} (h : 0 < n.level) : 2 ≤ n.size := by
  have hpow : 2 ^ 1 ≤ 2 ^ n.level := Nat.pow_le_pow_right Nat.zero_lt_two h
  exact hpow

namespace Octree

attribute [local irreducible] setKind subdivide

/-- The descent of a point from a node of the given level, with the slots that it takes and how it ends. -/
inductive Descent (p : Point) :
    (t : Octree) → (id level : Nat) → (trail : List Nat) → (t' : Octree) → Except InsertError Unit → Prop
  | reach {t : Octree} {id : Nat} {kind : Kind} (hn : t.nodes[id]? = some ⟨0, kind⟩) :
      Descent p t id 0 [] (t.setKind id .leaf) (.ok ())
  | plane {t : Octree} {id level : Nat} {kind : Kind} (hn : t.nodes[id]? = some ⟨level + 1, kind⟩)
      (hp : Octant.ofPoint p (2 ^ level) = none) :
      Descent p t id (level + 1) [] t (.error (.dropped ⟨p, 2 ^ (level + 1), 2 ^ level⟩))
  | full {t : Octree} {id level : Nat} {k : Octant} (hn : t.nodes[id]? = some ⟨level + 1, .empty⟩)
      (hp : Octant.ofPoint p (2 ^ level) = some k) (hl : t.limit < t.nodes.size + 8) :
      Descent p t id (level + 1) [] t (.error (.arenaFull ⟨t.nodes.size, t.limit⟩))
  | down {t t' : Octree} {id level first : Nat} {k : Octant} {trail : List Nat} {r : Except InsertError Unit}
      (hn : t.nodes[id]? = some ⟨level + 1, .internal first⟩) (hp : Octant.ofPoint p (2 ^ level) = some k)
      (hd : Descent p t (first + k.val) level trail t' r) : Descent p t id (level + 1) (k.val :: trail) t' r
  | split {t t' : Octree} {id level : Nat} {k : Octant} {trail : List Nat} {r : Except InsertError Unit}
      (hn : t.nodes[id]? = some ⟨level + 1, .empty⟩) (hp : Octant.ofPoint p (2 ^ level) = some k)
      (hl : t.nodes.size + 8 ≤ t.limit)
      (hd : Descent p (t.subdivide id level) (t.nodes.size + k.val) level trail t' r) :
      Descent p t id (level + 1) (k.val :: trail) t' r

theorem Arena.exists_descent {t : Octree} (h : Arena t) (p : Point) {id level : Nat} {kind : Kind}
    (hn : t.nodes[id]? = some ⟨level, kind⟩) :
    ∃ trail, Descent p t id level trail (t.descend p id level).1 (t.descend p id level).2 := by
  induction level generalizing t id kind with
  | zero => exact ⟨[], .reach hn⟩
  | succ level ih =>
    unfold descend
    cases hp : Octant.ofPoint p (2 ^ level) with
    | none => exact ⟨[], .plane hn hp⟩
    | some k =>
      rw [kind?_of_node hn]
      cases kind with
      | internal first =>
        obtain ⟨kind, hc⟩ := h.child hn k
        obtain ⟨trail, hd⟩ := ih h hc
        exact ⟨k.val :: trail, .down hn hp hd⟩
      | leaf => exact absurd (h.leaf hn) (Nat.succ_ne_zero level)
      | empty =>
        by_cases hl : t.nodes.size + 8 ≤ t.limit
        · obtain ⟨trail, hd⟩ := ih (h.split hn hl) (node_subdivide_new t id level k)
          simp only [hl, ↓reduceIte]
          exact ⟨k.val :: trail, .split hn hp hl hd⟩
        · simp only [hl, ↓reduceIte]
          exact ⟨[], .full hn hp (Nat.lt_of_not_le hl)⟩

def SplitAt (t : Octree) (path : List Nat) : Prop :=
  ∃ id level first, t.follow 0 path = some id ∧ t.nodes[id]? = some ⟨level, .internal first⟩

theorem splitAt_iff_follow {t : Octree} {path : List Nat} :
    (t.follow 0 (path ++ [0])).isSome = true ↔ t.SplitAt path := by
  rw [Option.isSome_iff_exists]
  constructor
  · rintro ⟨child, hc⟩
    obtain ⟨id, level, first, hp, hn, -, -⟩ := follow_snoc_iff.mp hc
    exact ⟨id, level, first, hp, hn⟩
  · rintro ⟨id, level, first, hp, hn⟩
    exact ⟨first, follow_snoc_iff.mpr ⟨id, level, first, hp, hn, by decide, rfl⟩⟩

instance (t : Octree) (path : List Nat) : Decidable (t.SplitAt path) :=
  decidable_of_iff _ splitAt_iff_follow

theorem splitAt_iff_node {t : Octree} {path : List Nat} {id : Nat} {n : Node} (hp : t.follow 0 path = some id)
    (hn : t.nodes[id]? = some n) : t.SplitAt path ↔ ∃ first, n.kind = .internal first := by
  constructor
  · rintro ⟨x, level, first, hx, hi⟩
    obtain rfl := Option.some.inj (hp.symm.trans hx)
    obtain rfl := Option.some.inj (hn.symm.trans hi)
    exact ⟨first, rfl⟩
  · rintro ⟨first, hk⟩
    refine ⟨id, n.level, first, hp, ?_⟩
    rw [hn, ← hk]

theorem Arena.leafAt_iff_node {t : Octree} (h : Arena t) {path : List Nat} {id : Nat} {n : Node}
    (hp : t.follow 0 path = some id) (hn : t.nodes[id]? = some n) : t.LeafAt path ↔ n.kind = .leaf := by
  constructor
  · rintro ⟨x, hx, hl⟩
    obtain rfl := Option.some.inj (hp.symm.trans hx)
    obtain rfl := Option.some.inj (hn.symm.trans hl)
    rfl
  · intro hk
    obtain ⟨level, kind⟩ := n
    subst hk
    obtain rfl := h.leaf hn
    exact ⟨id, hp, hn⟩

end Octree

def Passes (route path : List Nat) : Prop :=
  ∃ slot, path ++ [slot] <+: route

theorem not_passes_nil (path : List Nat) : ¬ Passes [] path := by
  rintro ⟨slot, hp⟩
  simp at hp

theorem not_passes_self (route : List Nat) : ¬ Passes route route := by
  rintro ⟨slot, hp⟩
  have := hp.length_le
  simp at this

theorem passes_cons_iff {slot : Nat} {rest path : List Nat} :
    Passes (slot :: rest) path ↔ path = [] ∨ ∃ front, path = slot :: front ∧ Passes rest front := by
  cases path with
  | nil => simp [Passes]
  | cons a front => simp [Passes, List.cons_prefix_cons]

theorem exists_passes_cons_iff {slot : Nat} {rest path target : List Nat} :
    (∃ front, Passes (slot :: rest) front ∧ target = path ++ front) ↔
      target = path ∨ ∃ front, Passes rest front ∧ target = path ++ [slot] ++ front := by
  constructor
  · rintro ⟨front, hf, rfl⟩
    rcases passes_cons_iff.mp hf with rfl | ⟨back, rfl, hb⟩
    · exact .inl (List.append_nil path)
    · exact .inr ⟨back, hb, List.append_cons path slot back⟩
  · rintro (rfl | ⟨front, hf, rfl⟩)
    · exact ⟨[], passes_cons_iff.mpr (.inl rfl), (List.append_nil target).symm⟩
    · exact ⟨slot :: front, passes_cons_iff.mpr (.inr ⟨front, rfl, hf⟩), (List.append_cons path slot front).symm⟩

theorem Passes.mono {route route' path : List Nat} (h : Passes route path) (hr : route <+: route') :
    Passes route' path := by
  obtain ⟨slot, hp⟩ := h
  exact ⟨slot, hp.trans hr⟩

namespace Octree

namespace Arena

variable {t t' : Octree} {id level : Nat} {kind : Kind} {path : List Nat}

theorem follow_child (hp : t.follow 0 path = some id) {first : Nat}
    (hn : t.nodes[id]? = some ⟨level, .internal first⟩) (k : Octant) :
    t.follow 0 (path ++ [k.val]) = some (first + k.val) :=
  follow_snoc_iff.mpr ⟨id, level, first, hp, hn, k.isLt, rfl⟩

theorem follow_new_child (h : Arena t) (hp : t.follow 0 path = some id)
    (hn : t.nodes[id]? = some ⟨level + 1, .empty⟩) (hl : t.nodes.size + 8 ≤ t.limit) (k : Octant) :
    (t.subdivide id level).follow 0 (path ++ [k.val]) = some (t.nodes.size + k.val) := by
  have hs : Step t (t.subdivide id level) := .split t id level hn hl
  exact follow_child (h.follow_step hs hp) ((internal_subdivide_iff hn).mpr (.inl ⟨rfl, rfl, rfl⟩)) k

theorem splitAt_mark (h : Arena t) (hn : t.nodes[id]? = some ⟨0, kind⟩) (target : List Nat) :
    (t.setKind id .leaf).SplitAt target ↔ t.SplitAt target := by
  have hs : Step t (t.setKind id .leaf) := .mark t id kind hn
  have hk := h.kind_of_unit hn
  constructor
  · rintro ⟨x, level, first, hx, hi⟩
    have hold := (internal_setKind_iff hn hk).mp hi
    exact ⟨x, level, first, (h.follow_step_iff hs (lt_of_node hold)).mp hx, hold⟩
  · rintro ⟨x, level, first, hx, hi⟩
    exact ⟨x, level, first, h.follow_step hs hx, (internal_setKind_iff hn hk).mpr hi⟩

theorem splitAt_split (h : Arena t) (hn : t.nodes[id]? = some ⟨level + 1, .empty⟩)
    (hl : t.nodes.size + 8 ≤ t.limit) (hp : t.follow 0 path = some id) (target : List Nat) :
    (t.subdivide id level).SplitAt target ↔ t.SplitAt target ∨ target = path := by
  have hs : Step t (t.subdivide id level) := .split t id level hn hl
  constructor
  · rintro ⟨x, l, first, hx, hi⟩
    rcases (internal_subdivide_iff hn).mp hi with ⟨rfl, -, -⟩ | hold
    · exact .inr (h.path_unique ((h.follow_step_iff hs (lt_of_node hn)).mp hx) hp)
    · exact .inl ⟨x, l, first, (h.follow_step_iff hs (lt_of_node hold)).mp hx, hold⟩
  · rintro (⟨x, l, first, hx, hi⟩ | rfl)
    · exact ⟨x, l, first, h.follow_step hs hx, (internal_subdivide_iff hn).mpr (.inr hi)⟩
    · exact ⟨id, level + 1, t.nodes.size, h.follow_step hs hp, (internal_subdivide_iff hn).mpr (.inl ⟨rfl, rfl, rfl⟩)⟩

end Arena

theorem Arena.node_step {t t' : Octree} (h : Arena t) (hs : Step t t') {id : Nat} {n : Node}
    (hn : t.nodes[id]? = some n) (hk : n.kind ≠ .empty) : t'.nodes[id]? = some n := by
  obtain ⟨level, kind⟩ := n
  cases kind with
  | empty => exact absurd rfl hk
  | internal first => exact h.internal_step hs hn
  | leaf =>
    cases hs with
    | limit n => exact hn
    | mark id' kind' hn' => exact (leaf_setKind_iff hn').mpr (.inr hn)
    | split id' level' hn' hl =>
      refine leaf_subdivide_iff.mpr ⟨?_, hn⟩
      rintro rfl
      cases hn.symm.trans hn'

theorem Arena.node_steps {t t' : Octree} (h : Arena t) (hs : Steps t t') {id : Nat} {n : Node}
    (hn : t.nodes[id]? = some n) (hk : n.kind ≠ .empty) : t'.nodes[id]? = some n := by
  induction hs with
  | refl => exact hn
  | tail hs step ih => exact (h.steps hs).node_step step ih hk

theorem Arena.follow_steps {t t' : Octree} (h : Arena t) (hs : Steps t t') {a b : Nat} {path : List Nat}
    (hp : t.follow a path = some b) : t'.follow a path = some b := by
  induction hs with
  | refl => exact hp
  | tail hs step ih => exact (h.steps hs).follow_step step ih

def EndsOn (t : Octree) (p : Point) (n : Node) : Except InsertError Unit → Prop
  | .ok () => n = ⟨0, .leaf⟩
  | .error (.dropped d) => d = ⟨p, n.size, n.size / 2⟩ ∧ 2 ≤ n.size ∧ ∃ c ∈ p.toList, c.toNat = n.size / 2
  | .error (.arenaFull a) => a = ⟨t.nodeCount, t.limit⟩ ∧ t.limit < t.nodeCount + 8 ∧ n.kind = .empty ∧
      2 ≤ n.size ∧ ∀ c ∈ p.toList, c.toNat ≠ n.size / 2

namespace EndsOn

variable {t : Octree} {p : Point} {level : Nat} {kind : Kind}

theorem dropped (hp : Octant.ofPoint p (2 ^ level) = none) :
    t.EndsOn p ⟨level + 1, kind⟩ (.error (.dropped ⟨p, 2 ^ (level + 1), 2 ^ level⟩)) := by
  have hhalf : Node.size ⟨level + 1, kind⟩ / 2 = 2 ^ level := Node.half_size level kind
  refine ⟨by rw [hhalf]; rfl, Node.two_le_size (Nat.succ_pos level), ?_⟩
  rw [hhalf]
  exact Octant.ofPoint_eq_none_iff.mp hp

theorem arenaFull {k : Octant} (hp : Octant.ofPoint p (2 ^ level) = some k) (hl : t.limit < t.nodes.size + 8) :
    t.EndsOn p ⟨level + 1, .empty⟩ (.error (.arenaFull ⟨t.nodes.size, t.limit⟩)) := by
  refine ⟨rfl, hl, rfl, Node.two_le_size (Nat.succ_pos level), ?_⟩
  rw [Node.half_size]
  exact Octant.ne_of_ofPoint hp

end EndsOn

namespace Descent

variable {p : Point} {t t' : Octree} {id level : Nat} {trail path : List Nat} {r : Except InsertError Unit}

theorem steps (hd : Descent p t id level trail t' r) : Steps t t' := by
  induction hd with
  | reach hn => exact .single (.mark _ _ _ hn)
  | plane => exact .refl
  | full => exact .refl
  | down hn hp hd ih => exact ih
  | split hn hp hl hd ih => exact .head (.split _ _ _ hn hl) ih

theorem limit_eq (hd : Descent p t id level trail t' r) : t'.limit = t.limit := by
  induction hd with
  | reach => exact limit_setKind _ _ _
  | plane => rfl
  | full => rfl
  | down hn hp hd ih => exact ih
  | split hn hp hl hd ih => rw [ih, limit_subdivide]

theorem trail_prefix (hd : Descent p t id level trail t' r) : trail <+: p.route level := by
  induction hd with
  | reach => exact List.nil_prefix
  | plane => exact List.nil_prefix
  | full => exact List.nil_prefix
  | down hn hp hd ih =>
    rw [Point.route, hp]
    exact List.cons_prefix_cons.mpr ⟨rfl, ih⟩
  | split hn hp hl hd ih =>
    rw [Point.route, hp]
    exact List.cons_prefix_cons.mpr ⟨rfl, ih⟩

theorem trail_eq_route (hd : Descent p t id level trail t' r) (hr : ∀ a, r ≠ .error (.arenaFull a)) :
    trail = p.route level := by
  induction hd with
  | reach => rfl
  | plane hn hp => rw [Point.route, hp]
  | full => exact absurd rfl (hr _)
  | down hn hp hd ih => rw [Point.route, hp, ih hr]
  | split hn hp hl hd ih => rw [Point.route, hp, ih hr]

theorem exists_stop (hd : Descent p t id level trail t' r) (h : Arena t) :
    ∃ stop n, t'.follow id trail = some stop ∧ t'.nodes[stop]? = some n ∧ t'.EndsOn p n r := by
  induction hd with
  | @reach t id kind hn =>
    refine ⟨id, ⟨0, .leaf⟩, rfl, ?_, rfl⟩
    rw [node_setKind, if_pos rfl, hn]
    rfl
  | @plane t id level kind hn hp => exact ⟨id, _, rfl, hn, .dropped hp⟩
  | @full t id level k hn hp hl => exact ⟨id, _, rfl, hn, .arenaFull hp hl⟩
  | @down t t' id level first k trail r hn hp hd ih =>
    obtain ⟨stop, n, hs, hstop⟩ := ih h
    have hi := h.node_steps hd.steps hn (by simp)
    exact ⟨stop, n, follow_cons_iff.mpr ⟨_, _, hi, k.isLt, hs⟩, hstop⟩
  | @split t t' id level k trail r hn hp hl hd ih =>
    have ha := h.split hn hl
    obtain ⟨stop, n, hs, hstop⟩ := ih ha
    have hi := ha.node_steps hd.steps ((internal_subdivide_iff hn).mpr (.inl ⟨rfl, rfl, rfl⟩)) (by simp)
    exact ⟨stop, n, follow_cons_iff.mpr ⟨_, _, hi, k.isLt, hs⟩, hstop⟩

theorem splitAt_iff (hd : Descent p t id level trail t' r) (h : Arena t) (hp : t.follow 0 path = some id)
    (target : List Nat) :
    t'.SplitAt target ↔ t.SplitAt target ∨ ∃ front, Passes trail front ∧ target = path ++ front := by
  induction hd generalizing path with
  | reach hn => simp [h.splitAt_mark hn, not_passes_nil]
  | plane => simp [not_passes_nil]
  | full => simp [not_passes_nil]
  | @down t t' id level first k trail r hn hk hd ih =>
    have hself : target = path → t.SplitAt target := by
      rintro rfl
      exact ⟨id, level + 1, first, hp, hn⟩
    rw [ih h (Arena.follow_child hp hn k), exists_passes_cons_iff, ← or_assoc, or_iff_left_of_imp hself]
  | @split t t' id level k trail r hn hk hl hd ih =>
    rw [ih (h.split hn hl) (h.follow_new_child hp hn hl k), h.splitAt_split hn hl hp, exists_passes_cons_iff, or_assoc]

theorem passes_of_full (hd : Descent p t id level trail t' r) {a : ArenaFull} (hr : r = .error (.arenaFull a)) :
    Passes (p.route level) trail := by
  induction hd with
  | reach => cases hr
  | plane => cases hr
  | @full t id level k hn hp hl =>
    refine ⟨k.val, ?_⟩
    rw [Point.route, hp]
    exact List.cons_prefix_cons.mpr ⟨rfl, List.nil_prefix⟩
  | down hn hp hd ih =>
    rw [Point.route, hp]
    exact passes_cons_iff.mpr (.inr ⟨_, rfl, ih hr⟩)
  | split hn hp hl hd ih =>
    rw [Point.route, hp]
    exact passes_cons_iff.mpr (.inr ⟨_, rfl, ih hr⟩)

end Descent

theorem Arena.insert_spec {t : Octree} (h : Arena t) (p : Point) :
    ∃ trail, Descent p t 0 t.depth trail (t.insert p).1 (t.insert p).2 ∧
      (∀ path, (t.insert p).1.SplitAt path ↔ t.SplitAt path ∨ Passes trail path) ∧
      ∀ path, (t.insert p).1.LeafAt path ↔ t.LeafAt path ∨ (t.insert p).2 = .ok () ∧ path = p.route t.depth := by
  obtain ⟨kind, hr⟩ := h.root
  have hstart : t.follow 0 [] = some 0 := rfl
  obtain ⟨trail, hd⟩ := h.exists_descent p hr
  refine ⟨trail, hd, fun path => ?_, h.leafAt_descend p hr hstart⟩
  rw [insert, hd.splitAt_iff h hstart]
  simp

end Octree

end VoxelOctree
