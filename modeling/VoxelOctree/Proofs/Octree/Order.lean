import Mathlib.Data.List.Nodup
import Mathlib.Data.List.Perm.Subperm
import VoxelOctree.Octree.Cell
import VoxelOctree.Proofs.Octree.Path

namespace VoxelOctree

namespace Octant

theorem mem_all (k : Octant) : k ∈ all := by
  revert k
  decide

theorem nodup_all : all.Nodup := by
  decide

theorem take_succ (k : Octant) : all.take (k.val + 1) = all.take k.val ++ [k] := by
  revert k
  decide

theorem drop_val (k : Octant) : all.drop k.val = k :: all.drop (k.val + 1) := by
  revert k
  decide

theorem through {motive : Nat → Prop} (zero : motive 0) (succ : ∀ k : Octant, motive k.val → motive (k.val + 1)) :
    motive 8 := by
  have h (n : Nat) (hn : n ≤ 8) : motive n := by
    induction n with
    | zero => exact zero
    | succ n ih => exact succ ⟨n, hn⟩ (ih (by omega))
  exact h 8 (Nat.le_refl 8)

theorem monotone_slots {f : Nat → Nat} (h : ∀ k : Octant, f k.val ≤ f (k.val + 1)) {m n : Nat} (hmn : m ≤ n)
    (hn : n ≤ 8) : f m ≤ f n := by
  induction n, hmn using Nat.le_induction with
  | base => exact Nat.le_refl _
  | succ n hmn ih => exact (ih (by omega)).trans (h ⟨n, hn⟩)

theorem exists_slot {f : Nat → Nat} {j : Nat} (h0 : f 0 ≤ j) (h8 : j < f 8) :
    ∃ k : Octant, f k.val ≤ j ∧ j < f (k.val + 1) := by
  revert h8
  refine through (motive := fun slot => j < f slot → ∃ k : Octant, f k.val ≤ j ∧ j < f (k.val + 1)) ?_ ?_
  · intro h
    omega
  · intro k ih hk
    by_cases hj : j < f k.val
    · exact ih hj
    · exact ⟨k, by omega, hk⟩

end Octant

namespace Cell

theorem countBefore_succ (children : Octant → Cell) (k : Octant) :
    countBefore children (k.val + 1) = countBefore children k.val + (children k).count := by
  simp only [countBefore, Octant.take_succ, List.foldl_append, List.foldl_cons, List.foldl_nil]

theorem countBefore_add_le (children : Octant → Cell) (k : Octant) :
    countBefore children k.val + (children k).count ≤ countBefore children 8 := by
  rw [← countBefore_succ]
  refine Octant.monotone_slots (fun j => ?_) k.isLt (Nat.le_refl 8)
  rw [countBefore_succ]
  exact Nat.le_add_right _ _

theorem count_split (children : Octant → Cell) : (split children).count = countBefore children 8 + 1 := by
  simp [count, countBefore, Octant.all]
  omega

theorem count_pos (c : Cell) : 0 < c.count := by
  cases c with
  | empty => exact Nat.one_pos
  | leaf => exact Nat.one_pos
  | split children =>
    rw [count_split]
    exact Nat.succ_pos _

theorem length_flatMap_take {α : Type} (children : Octant → Cell) (f : Octant → List α)
    (hf : ∀ k, (f k).length = (children k).count) (slot : Nat) :
    ((Octant.all.take slot).flatMap f).length = countBefore children slot := by
  rw [countBefore, List.length_flatMap]
  simp only [hf, List.sum_eq_foldl, List.foldl_map]

end Cell

namespace Octree

def order (t : Octree) (id : Nat) : Nat → List Nat
  | 0 => [id]
  | level + 1 =>
    match t.kind? id with
    | some (.internal first) => (Octant.all.flatMap fun k => t.order (first + k.val) level) ++ [id]
    | _ => [id]

section Unfold

variable {t : Octree} {id level first : Nat} {kind : Kind}

theorem order_internal (hn : t.nodes[id]? = some ⟨level + 1, .internal first⟩) :
    t.order id (level + 1) = (Octant.all.flatMap fun k => t.order (first + k.val) level) ++ [id] := by
  rw [order, kind?_of_node hn]

theorem order_terminal (hn : t.nodes[id]? = some ⟨level, kind⟩) (hk : ∀ first, kind ≠ .internal first) :
    t.order id level = [id] := by
  cases level with
  | zero => rfl
  | succ level =>
    rw [order, kind?_of_node hn]
    cases kind with
    | internal first => exact absurd rfl (hk first)
    | empty => rfl
    | leaf => rfl

theorem cellAt_internal (hn : t.nodes[id]? = some ⟨level + 1, .internal first⟩) :
    t.cellAt id (level + 1) = .split fun k => t.cellAt (first + k.val) level := by
  rw [cellAt, kind?_of_node hn]

theorem cellAt_empty (hn : t.nodes[id]? = some ⟨level, .empty⟩) : t.cellAt id level = .empty := by
  cases level <;> simp [cellAt, kind?_of_node hn]

theorem cellAt_leaf (hn : t.nodes[id]? = some ⟨level, .leaf⟩) : t.cellAt id level = .leaf := by
  cases level <;> simp [cellAt, kind?_of_node hn]

end Unfold

namespace Arena

variable {t : Octree}

theorem induction_on (h : Arena t) {motive : Nat → Nat → Prop}
    (empty : ∀ id level, t.nodes[id]? = some ⟨level, .empty⟩ → motive id level)
    (leaf : ∀ id, t.nodes[id]? = some ⟨0, .leaf⟩ → motive id 0)
    (internal : ∀ id level first, t.nodes[id]? = some ⟨level + 1, .internal first⟩ →
      (∀ k : Octant, motive (first + k.val) level) → motive id (level + 1))
    {id level : Nat} {kind : Kind} (hn : t.nodes[id]? = some ⟨level, kind⟩) : motive id level := by
  induction level generalizing id kind with
  | zero =>
    cases kind with
    | empty => exact empty id 0 hn
    | leaf => exact leaf id hn
    | internal first => exact absurd rfl (h.kind_of_unit hn first)
  | succ level ih =>
    cases kind with
    | empty => exact empty id (level + 1) hn
    | leaf => exact absurd (h.leaf hn) (Nat.succ_ne_zero level)
    | internal first =>
      apply internal id level first hn
      intro k
      obtain ⟨kind, hc⟩ := h.child hn k
      exact ih hc

theorem length_order (h : Arena t) {id level : Nat} {kind : Kind} (hn : t.nodes[id]? = some ⟨level, kind⟩) :
    (t.order id level).length = (t.cellAt id level).count := by
  refine h.induction_on (motive := fun id level => (t.order id level).length = (t.cellAt id level).count)
    ?_ ?_ ?_ hn
  · intro id level hn
    rw [order_terminal hn (by simp), cellAt_empty hn]
    rfl
  · intro id hn
    rw [order_terminal hn (by simp), cellAt_leaf hn]
    rfl
  · intro id level first hn ih
    rw [order_internal hn, cellAt_internal hn, Cell.count_split, List.length_append, List.length_singleton,
      ← Cell.length_flatMap_take _ _ ih]
    rfl

theorem mem_order_iff (h : Arena t) {id level : Nat} {kind : Kind} (hn : t.nodes[id]? = some ⟨level, kind⟩)
    (x : Nat) : x ∈ t.order id level ↔ ∃ path, t.follow id path = some x := by
  refine h.induction_on (motive := fun id level => x ∈ t.order id level ↔ ∃ path, t.follow id path = some x)
    ?_ ?_ ?_ hn
  · intro id level hn
    rw [order_terminal hn (by simp), List.mem_singleton]
    exact follow_terminal_iff hn (by simp)
  · intro id hn
    rw [order_terminal hn (by simp), List.mem_singleton]
    exact follow_terminal_iff hn (by simp)
  · intro id level first hn ih
    simp only [order_internal hn, List.mem_append, List.mem_flatMap, List.mem_singleton, ih]
    constructor
    · rintro (⟨k, -, path, hp⟩ | rfl)
      · exact ⟨k.val :: path, follow_cons_iff.mpr ⟨level + 1, first, hn, k.isLt, hp⟩⟩
      · exact ⟨[], rfl⟩
    · rintro ⟨path, hp⟩
      cases path with
      | nil => exact .inr (Option.some.inj hp).symm
      | cons slot rest =>
        obtain ⟨level', first', hn', hs, hr⟩ := follow_cons_iff.mp hp
        obtain ⟨-, rfl⟩ : level + 1 = level' ∧ first = first' := by simpa [hn] using hn'
        exact .inl ⟨⟨slot, hs⟩, Octant.mem_all _, rest, hr⟩

theorem nodup_order (h : Arena t) {id level : Nat} {kind : Kind} (hn : t.nodes[id]? = some ⟨level, kind⟩) :
    (t.order id level).Nodup := by
  refine h.induction_on (motive := fun id level => (t.order id level).Nodup) ?_ ?_ ?_ hn
  · intro id level hn
    rw [order_terminal hn (by simp)]
    exact List.nodup_singleton id
  · intro id hn
    rw [order_terminal hn (by simp)]
    exact List.nodup_singleton id
  · intro id level first hn ih
    have hmem (k : Octant) (x : Nat) (hx : x ∈ t.order (first + k.val) level) :
        ∃ path, t.follow id (k.val :: path) = some x := by
      obtain ⟨kind, hc⟩ := h.child hn k
      obtain ⟨path, hp⟩ := (h.mem_order_iff hc x).mp hx
      exact ⟨path, follow_cons_iff.mpr ⟨level + 1, first, hn, k.isLt, hp⟩⟩
    have hlen (path : List Nat) (x : Nat) (hp : t.follow id path = some x) :
        ∃ n, t.nodes[x]? = some n ∧ level + 1 = n.level + path.length := by
      obtain ⟨below, kind, hx, hl⟩ := h.follow_level hn hp
      exact ⟨_, hx, hl⟩
    rw [order_internal hn, List.nodup_append']
    refine ⟨List.nodup_flatMap.mpr ⟨fun k _ => ih k, Octant.nodup_all.imp ?_⟩, List.nodup_singleton id, ?_⟩
    · -- a node below two children would be at the end of two paths of one length
      intro j k hne x hj hk
      obtain ⟨path, hp⟩ := hmem j x hj
      obtain ⟨path', hp'⟩ := hmem k x hk
      obtain ⟨n, hx, hl⟩ := hlen _ _ hp
      obtain ⟨n', hx', hl'⟩ := hlen _ _ hp'
      obtain rfl : n = n' := Option.some.inj (hx.symm.trans hx')
      have he := (h.follow_unique hp hp' (by omega)).2
      exact hne (Fin.ext (List.cons.inj he).1)
    · intro x hx hid
      obtain ⟨k, -, hk⟩ := List.mem_flatMap.mp hx
      obtain ⟨path, hp⟩ := hmem k x hk
      obtain ⟨n, hn', hl⟩ := hlen _ _ hp
      obtain rfl : x = id := List.mem_singleton.mp hid
      obtain rfl : n = ⟨level + 1, .internal first⟩ := Option.some.inj (hn'.symm.trans hn)
      simp at hl

theorem order_perm (h : Arena t) : (t.order 0 t.depth).Perm (List.range t.nodeCount) := by
  obtain ⟨kind, hr⟩ := h.root
  rw [List.perm_ext_iff_of_nodup (h.nodup_order hr) List.nodup_range]
  intro x
  rw [h.mem_order_iff hr, List.mem_range]
  constructor
  · rintro ⟨path, hp⟩
    obtain ⟨below, kind', hx, -⟩ := h.follow_level hr hp
    exact lt_of_node hx
  · exact h.exists_path x

theorem count_cell (h : Arena t) : t.cell.count = t.nodeCount := by
  obtain ⟨kind, hr⟩ := h.root
  rw [cell, ← h.length_order hr, h.order_perm.length_eq, List.length_range]

theorem count_cellAt_le (h : Arena t) {id level : Nat} {kind : Kind} (hn : t.nodes[id]? = some ⟨level, kind⟩) :
    (t.cellAt id level).count ≤ t.nodeCount := by
  have hsub : t.order id level ⊆ List.range t.nodeCount := by
    intro x hx
    obtain ⟨path, hp⟩ := (h.mem_order_iff hn x).mp hx
    obtain ⟨below, kind, hx, -⟩ := h.follow_level hn hp
    exact List.mem_range.mpr (lt_of_node hx)
  have hle := (List.subperm_of_subset (h.nodup_order hn) hsub).length_le
  rwa [h.length_order hn, List.length_range] at hle

end Arena

end Octree

end VoxelOctree
