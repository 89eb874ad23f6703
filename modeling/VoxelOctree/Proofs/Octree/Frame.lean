import VoxelOctree.Proofs.Octree.Attempts
import VoxelOctree.Proofs.Octree.Count

namespace VoxelOctree

theorem passes_iff_take {route path : List Nat} : Passes route path ↔ ∃ j < route.length, route.take j = path := by
  constructor
  · rintro ⟨slot, hp⟩
    have hle := hp.length_le
    rw [List.length_append, List.length_singleton] at hle
    exact ⟨path.length, hle, (List.prefix_iff_eq_take.mp ((List.prefix_append path [slot]).trans hp)).symm⟩
  · rintro ⟨j, hj, rfl⟩
    refine ⟨route[j], ?_⟩
    rw [List.take_append_getElem]
    exact List.take_prefix _ _

theorem ncard_passes (route : List Nat) (q : List Nat → Prop) [DecidablePred q] :
    {path | Passes route path ∧ q path}.ncard =
      ((Finset.range route.length).filter fun j => q (route.take j)).card := by
  have himage : {path | Passes route path ∧ q path} =
      ((Finset.range route.length).filter fun j => q (route.take j)).image route.take := by
    ext path
    simp only [Set.mem_ofPred_eq, passes_iff_take, Finset.coe_image, Set.mem_image, Finset.mem_coe,
      Finset.mem_filter, Finset.mem_range]
    constructor
    · rintro ⟨⟨j, hj, rfl⟩, hq⟩
      exact ⟨j, ⟨hj, hq⟩, rfl⟩
    · rintro ⟨j, ⟨hj, hq⟩, rfl⟩
      exact ⟨⟨j, hj, rfl⟩, hq⟩
  rw [himage, Set.ncard_coe_finset, Finset.card_image_of_injOn]
  intro i hi j hj he
  have hi' : i < route.length := Finset.mem_range.mp (Finset.mem_filter.mp hi).1
  have hj' : j < route.length := Finset.mem_range.mp (Finset.mem_filter.mp hj).1
  have hlen := congrArg List.length he
  rwa [List.length_take_of_le hi'.le, List.length_take_of_le hj'.le] at hlen

namespace Octree

structure Frame (trail : List Nat) (t t' : Octree) : Prop where
  rootSize_eq : t'.rootSize = t.rootSize
  depth_eq : t'.depth = t.depth
  limit_eq : t'.limit = t.limit
  node : ∀ (id : Nat) (n : Node), t.nodes[id]? = some n → ∃ n', t'.nodes[id]? = some n' ∧ n'.size = n.size ∧
    (n' = n ∨ n.kind = .empty ∧ (∃ front, front <+: trail ∧ t'.follow 0 front = some id) ∧
      (n'.kind = .leaf ∧ n.size = 1 ∨ (∃ first, n'.kind = .internal first) ∧ 2 ≤ n.size))
  nodeCount_eq : t'.nodeCount =
    t.nodeCount + 8 * ((Finset.range trail.length).filter fun j => ¬ t.SplitAt (trail.take j)).card

structure Refused (stop : Nat) (t t' : Octree) : Prop where
  leaf : ∀ (id : Nat) (n : Node), t'.nodes[id]? = some n → n.kind = .leaf → t.nodes[id]? = some n
  leafCount_eq : t'.leafCount = t.leafCount
  stop : ∀ n, t'.nodes[stop]? = some n → t.nodes[stop]? = some n ∨ t.nodes[stop]? = none ∧ n.kind = .empty

namespace Arena

variable {t t' : Octree} {id : Nat} {n : Node} {path trail : List Nat}

theorem level_steps (h : Arena t) (hs : Steps t t') (hn : t.nodes[id]? = some n) :
    ∃ kind, t'.nodes[id]? = some ⟨n.level, kind⟩ := by
  obtain ⟨path, hp⟩ := h.exists_path id (lt_of_node hn)
  obtain ⟨kind, hr⟩ := (h.steps hs).root
  obtain ⟨level, kind', hn', hl⟩ := (h.steps hs).follow_level hr (h.follow_steps hs hp)
  have hl' := h.path_length hn hp
  obtain rfl : level = n.level := by
    rw [hs.depth_eq] at hl
    omega
  exact ⟨kind', hn'⟩

theorem nodeCount_of_splitAt (h : Arena t) (h' : Arena t')
    (hsplit : ∀ path, t'.SplitAt path ↔ t.SplitAt path ∨ Passes trail path) : t'.nodeCount =
      t.nodeCount + 8 * ((Finset.range trail.length).filter fun j => ¬ t.SplitAt (trail.take j)).card := by
  have hunion : {path | t'.SplitAt path} = {path | t.SplitAt path} ∪ {path | Passes trail path ∧ ¬ t.SplitAt path} := by
    ext path
    simp only [Set.mem_ofPred_eq, Set.mem_union, hsplit]
    tauto
  have hdisjoint : Disjoint {path | t.SplitAt path} {path | Passes trail path ∧ ¬ t.SplitAt path} :=
    Set.disjoint_left.mpr fun path hold hnew => hnew.2 hold
  have hfinite : {path | Passes trail path ∧ ¬ t.SplitAt path}.Finite :=
    h'.finite_splitAt.subset fun path hnew => (hsplit path).mpr (.inr hnew.1)
  rw [h'.nodeCount_eq, h.nodeCount_eq, hunion, Set.ncard_union_eq hdisjoint h.finite_splitAt hfinite, ncard_passes]
  omega

theorem frame (h : Arena t) (hs : Steps t t') (hlimit : t'.limit = t.limit)
    (hsplit : ∀ path, t'.SplitAt path ↔ t.SplitAt path ∨ Passes trail path)
    (hleaf : ∀ path, t'.LeafAt path → t.LeafAt path ∨ path = trail) : Frame trail t t' where
  rootSize_eq := by rw [rootSize, rootSize, hs.depth_eq]
  depth_eq := hs.depth_eq
  limit_eq := hlimit
  nodeCount_eq := h.nodeCount_of_splitAt (h.steps hs) hsplit
  node := by
    intro id n hn
    have ha := h.steps hs
    obtain ⟨path, hp⟩ := h.exists_path id (lt_of_node hn)
    have hp' := h.follow_steps hs hp
    by_cases hk : n.kind = .empty
    · obtain ⟨kind, hn'⟩ := h.level_steps hs hn
      refine ⟨_, hn', rfl, ?_⟩
      cases kind with
      | empty =>
        left
        rw [← hk]
      | leaf =>
        have hnew := hleaf path ((ha.leafAt_iff_node hp' hn').mpr rfl)
        rw [h.leafAt_iff_node hp hn, hk] at hnew
        obtain rfl : path = trail := by simpa using hnew
        have hunit : n.size = 1 := by rw [Node.size, ha.leaf hn', Nat.pow_zero]
        exact .inr ⟨hk, ⟨path, List.prefix_refl path, hp'⟩, .inl ⟨rfl, hunit⟩⟩
      | internal first =>
        have hnew := (hsplit path).mp ((splitAt_iff_node hp' hn').mpr ⟨first, rfl⟩)
        rw [splitAt_iff_node hp hn, hk] at hnew
        obtain ⟨slot, hpass⟩ : Passes trail path := by simpa using hnew
        have hfront : path <+: trail := (List.prefix_append path [slot]).trans hpass
        have hlarge : 2 ≤ n.size := Node.two_le_size (ha.block hn').1
        exact .inr ⟨hk, ⟨path, hfront, hp'⟩, .inr ⟨⟨first, rfl⟩, hlarge⟩⟩
    · exact ⟨n, h.node_steps hs hn hk, rfl, .inl rfl⟩

theorem node_of_follow (h : Arena t) (hs : Steps t t') {old : Nat} {m : Node} (hp : t.follow 0 path = some old)
    (hm : t.nodes[old]? = some m) (hk : m.kind ≠ .empty) (hp' : t'.follow 0 path = some id)
    (hn : t'.nodes[id]? = some n) : t.nodes[id]? = some n := by
  obtain rfl : id = old := Option.some.inj (hp'.symm.trans (h.follow_steps hs hp))
  rw [hm, ← h.node_steps hs hm hk, hn]

theorem leaf_of_leafAt (h : Arena t) (hs : Steps t t') (hl : t.LeafAt path) (hp' : t'.follow 0 path = some id)
    (hn : t'.nodes[id]? = some n) : t.nodes[id]? = some n := by
  obtain ⟨old, hp, hm⟩ := hl
  exact h.node_of_follow hs hp hm (by simp) hp' hn

-- No node is split at the end of its own trail, so what is split there was so before.
theorem refused (h : Arena t) (hs : Steps t t') {stop : Nat} (hstop : t'.follow 0 trail = some stop)
    (hsplit : ∀ path, t'.SplitAt path ↔ t.SplitAt path ∨ Passes trail path)
    (hleaf : ∀ path, t'.LeafAt path ↔ t.LeafAt path) (hframe : Frame trail t t') : Refused stop t t' where
  leaf := by
    intro id n hn hk
    have ha := h.steps hs
    obtain ⟨path, hp⟩ := ha.exists_path id (lt_of_node hn)
    exact h.leaf_of_leafAt hs ((hleaf path).mp ((ha.leafAt_iff_node hp hn).mpr hk)) hp hn
  leafCount_eq := by
    rw [← h.ncard_leafAt, ← (h.steps hs).ncard_leafAt]
    simp only [hleaf]
  stop := by
    rintro ⟨level, kind⟩ hn
    have ha := h.steps hs
    cases kind with
    | empty =>
      cases hold : t.nodes[stop]? with
      | none => exact .inr ⟨rfl, rfl⟩
      | some m =>
        obtain ⟨m', hm', -, rfl | ⟨-, -, ⟨hk, -⟩ | ⟨⟨first, hk⟩, -⟩⟩⟩ := hframe.node stop m hold <;>
          obtain rfl := Option.some.inj (hn.symm.trans hm')
        · exact .inl rfl
        · cases hk
        · cases hk
    | leaf =>
      have hold := (hleaf trail).mp ((ha.leafAt_iff_node hstop hn).mpr rfl)
      exact .inl (h.leaf_of_leafAt hs hold hstop hn)
    | internal first =>
      have hnew := (hsplit trail).mp ((splitAt_iff_node hstop hn).mpr ⟨first, rfl⟩)
      obtain ⟨old, l, f, hp, hm⟩ := hnew.resolve_right (not_passes_self trail)
      exact .inl (h.node_of_follow hs hp hm (by simp) hstop hn)

theorem leaf_exec (h : Arena t) (hp : t.follow 0 path = some id) (hn : t.nodes[id]? = some ⟨0, .leaf⟩)
    (commands : List Command) :
    (t.exec commands).follow 0 path = some id ∧ (t.exec commands).nodes[id]? = some ⟨0, .leaf⟩ := by
  have hs := exec_steps commands h
  exact ⟨h.follow_steps hs hp, h.node_steps hs hn (by simp)⟩

end Arena

/-- What the insertion of a point leaves that took the slots of `trail` and ended on node number `stop`. -/
structure Inserted (t : Octree) (p : Point) (trail : List Nat) (stop : Nat) (t' : Octree)
    (r : Except InsertError Unit) : Prop where
  trail_prefix : trail <+: p.route t.depth
  stops : ∃ n, t'.follow 0 trail = some stop ∧ t'.nodes[stop]? = some n ∧ t'.EndsOn p n r
  frame : Frame trail t t'
  refused : r ≠ .ok () → Refused stop t t'
  trail_eq : r = .ok () → trail = p.route t.depth
  leaf : r = .ok () → ∀ (id : Nat) (m : Node), t'.nodes[id]? = some m → m.kind = .leaf → id ≠ stop →
    t.nodes[id]? = some m
  kept : r = .ok () → ∀ commands, (t'.exec commands).follow 0 trail = some stop ∧
    (t'.exec commands).nodes[stop]? = some ⟨0, .leaf⟩

structure Lasting (t : Octree) : Prop where
  node : ∀ (id : Nat) (m : Node), t.nodes[id]? = some m → m.kind ≠ .empty →
    ∀ commands, (t.exec commands).nodes[id]? = some m
  accepted : ∀ commands, ∀ a ∈ t.attempts commands, a.result = .ok () → ∃ last, ∀ later,
    ((t.exec commands).exec later).follow 0 (a.point.route t.depth) = some last ∧
      ((t.exec commands).exec later).nodes[last]? = some ⟨0, .leaf⟩

/-- An insertion changes empty nodes on the way of its point and nothing else; a refused point makes no leaf and
leaves the node on which it was refused as it was. What is not empty stays as it is in every later call. -/
theorem insert_frame {t : Octree} (h : t.Reachable) (p : Point) :
    (∃ trail stop, Inserted t p trail stop (t.insert p).1 (t.insert p).2) ∧ Lasting t := by
  have ha := h.arena
  obtain ⟨trail, hd, hsplit, hleaf⟩ := ha.insert_spec p
  generalize t.insert p = result at hd hsplit hleaf
  obtain ⟨t', r⟩ := result
  have hs := hd.steps
  have ha' : Arena t' := ha.steps hs
  obtain ⟨stop, n, hp, hn, hend⟩ := hd.exists_stop ha
  have hroute : r = .ok () → trail = p.route t.depth := by
    intro hr
    apply hd.trail_eq_route
    intro full hf
    cases hr.symm.trans hf
  have hnew : ∀ path, t'.LeafAt path → t.LeafAt path ∨ path = trail := by
    intro path hl
    rcases (hleaf path).mp hl with hl | ⟨hr, rfl⟩
    · exact .inl hl
    · exact .inr (hroute hr).symm
  have hframe : Frame trail t t' := ha.frame hs hd.limit_eq hsplit hnew
  refine ⟨⟨trail, stop, hd.trail_prefix, ⟨n, hp, hn, hend⟩, hframe, ?_, hroute, ?_, ?_⟩, ?_, ?_⟩
  · intro hr
    have hkept : ∀ path, t'.LeafAt path ↔ t.LeafAt path := by
      intro path
      rw [hleaf]
      exact or_iff_left fun hnew => hr hnew.1
    exact ha.refused hs hp hsplit hkept hframe
  · intro _ id m hm hk hne
    obtain ⟨path, hpath⟩ := ha'.exists_path id (lt_of_node hm)
    rcases hnew path ((ha'.leafAt_iff_node hpath hm).mpr hk) with hold | rfl
    · exact ha.leaf_of_leafAt hs hold hpath hm
    · exact absurd (Option.some.inj (hpath.symm.trans hp)) hne
  · rintro rfl
    obtain rfl : n = ⟨0, .leaf⟩ := hend
    exact ha'.leaf_exec hp hn
  · intro id m hm hk commands
    exact ha.node_steps (exec_steps commands ha) hm hk
  · intro commands a hm hr
    obtain ⟨last, hlast, hunit⟩ := h.leafAt_of_attempt commands hm hr
    exact ⟨last, (ha.steps (exec_steps commands ha)).leaf_exec hlast hunit⟩

theorem insert_frame_mixed : ∃ start : Octree, create (4 : UInt32).toNat (16 : UInt32).toNat = .ok start ∧
    let t := start.exec [.limit 9]
    (t.insert ⟨3, 1, 3⟩).2 = .error (.dropped ⟨⟨3, 1, 3⟩, 2, 1⟩) ∧ (∃ stop, Refused stop t (t.insert ⟨3, 1, 3⟩).1) ∧
      (t.insert ⟨3, 3, 3⟩).2 = .error (.arenaFull ⟨9, 9⟩) ∧ (∃ stop, Refused stop t (t.insert ⟨3, 3, 3⟩).1) ∧
      ∃ stop : Nat, ∀ commands, ((start.insert ⟨3, 3, 3⟩).1.exec commands).nodes[stop]? = some ⟨0, .leaf⟩ := by
  have hs : create (4 : UInt32).toNat (16 : UInt32).toNat = .ok ⟨2, maxNodes, #[⟨2, .empty⟩]⟩ := rfl
  have hstart : Reachable ⟨2, maxNodes, #[⟨2, .empty⟩]⟩ := ⟨4, 16, _, [], hs, rfl⟩
  have hsmall : Reachable (exec ⟨2, maxNodes, #[⟨2, .empty⟩]⟩ [.limit 9]) := ⟨4, 16, _, [.limit 9], hs, rfl⟩
  obtain ⟨⟨_, plane, hplane⟩, -⟩ := insert_frame hsmall ⟨3, 1, 3⟩
  obtain ⟨⟨_, full, hfull⟩, -⟩ := insert_frame hsmall ⟨3, 3, 3⟩
  obtain ⟨⟨_, stop, hok⟩, -⟩ := insert_frame hstart ⟨3, 3, 3⟩
  exact ⟨_, hs, by decide, ⟨plane, hplane.refused (by decide)⟩, by decide, ⟨full, hfull.refused (by decide)⟩, stop,
    fun commands => (hok.kept (by decide) commands).2⟩

end Octree

end VoxelOctree
