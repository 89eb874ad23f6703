import VoxelOctree.Proofs.Convert.Compile
import VoxelOctree.Proofs.Flatten.Block
import VoxelOctree.Proofs.Octree.Leaves

namespace VoxelOctree

namespace Record

def next (r : Record) (p : Point) : Option Nat :=
  if r.isInternal then (Octant.ofPoint p (r.extent / 2)).map r.link else none

/-- A point that goes down from record `i` as far as it can ends at record `j`. -/
inductive Descent (records : Array Record) (p : Point) : (i j : Nat) → Prop
  | stop {i : Nat} {r : Record} (hr : records[i]? = some r) (hn : r.next p = none) : Descent records p i i
  | step {i j c : Nat} {r : Record} (hr : records[i]? = some r) (hn : r.next p = some c)
      (hd : Descent records p c j) : Descent records p i j

theorem Descent.unique {records : Array Record} {p : Point} {i j j' : Nat} (h : Descent records p i j)
    (h' : Descent records p i j') : j' = j := by
  induction h with
  | stop hr hn =>
    cases h' with
    | stop => rfl
    | step hr' hn' =>
      obtain rfl := Option.some.inj (hr.symm.trans hr')
      cases hn.symm.trans hn'
  | step hr hn hd ih =>
    cases h' with
    | stop hr' hn' =>
      obtain rfl := Option.some.inj (hr.symm.trans hr')
      cases hn.symm.trans hn'
    | step hr' hn' hd' =>
      obtain rfl := Option.some.inj (hr.symm.trans hr')
      obtain rfl := Option.some.inj (hn.symm.trans hn')
      exact ih hd'

theorem next_terminal (position : Vec3 Single) (size : Nat) (m : Material) (isLeaf : Bool) (p : Point) :
    (terminal position size m isLeaf).next p = none := by
  cases isLeaf <;> rfl

theorem next_internal (position : Vec3 Single) {level : Nat} (hl : level + 1 < 32) (links : Vector UInt32 8)
    (p : Point) : (internal position (2 ^ (level + 1)) links).next p =
      (Octant.ofPoint p (2 ^ level)).map (internal position (2 ^ (level + 1)) links).link := by
  have hhalf : (internal position (2 ^ (level + 1)) links).extent / 2 = 2 ^ level := by
    rw [extent_of_size hl rfl, Nat.pow_succ, Nat.mul_div_cancel _ (by decide)]
  rw [next, hhalf]
  rfl

end Record

theorem Block.descent {t : Octree} {resolve : Resolver} {records : Array Record} {ids : List Nat}
    {id level lo hi : Nat} {position : Vec3 Single} (h : Block t resolve records ids id level position lo hi)
    (ha : t.Arena) (hl : level < 32) (hs : records.size ≤ UInt32.size) (p : Point) :
    ∃ j r, Record.Descent records p (hi - 1) j ∧ records[j]? = some r ∧
      (r.isLeaf = true ↔ ∃ x, t.follow id (p.route level) = some x ∧ t.nodes[x]? = some ⟨0, .leaf⟩) := by
  induction h with
  | @terminal id level lo kind position hn hk hid hr =>
    refine ⟨lo, _, .stop hr (Record.next_terminal ..), hr, ?_⟩
    show kind.isLeaf = true ↔ _
    constructor
    · intro hleaf
      obtain rfl : kind = .leaf := of_decide_eq_true hleaf
      obtain rfl := ha.leaf hn
      exact ⟨id, rfl, hn⟩
    · rintro ⟨x, hx, hleaf⟩
      obtain rfl := (Octree.follow_terminal_iff hn hk).mpr ⟨_, hx⟩
      obtain ⟨-, rfl⟩ : level = 0 ∧ kind = .leaf := by simpa [hn] using hleaf
      rfl
  | @internal id level first lo last position cut hn hlo hlast hc hid hr ih =>
    have hnext := Record.next_internal position hl (Vector.ofFn fun k => UInt32.ofNat (cut (k.val + 1) - 1)) p
    cases hk : Octant.ofPoint p (2 ^ level) with
    | none =>
      rw [hk, Option.map_none] at hnext
      refine ⟨last, _, .stop hr hnext, hr, ?_⟩
      simp [Point.route, hk, Octree.follow, hn, Record.internal]
    | some k =>
      have hlink := Record.link_internal position (2 ^ (level + 1)) (Nat.zero_lt_of_lt (hc k).lt)
        ((hc k).le_size.trans hs)
      rw [hk, Option.map_some, hlink] at hnext
      obtain ⟨j, r, hd, hj, hleaf⟩ := ih k (by omega)
      refine ⟨j, r, .step hr hnext hd, hj, hleaf.trans ?_⟩
      simp [Point.route, hk, Octree.follow_cons_iff, hn]

theorem Octree.Arena.leafAt_insertAll {t : Octree} (h : t.Arena) {points : List Point} {report : InsertReport}
    (ho : (t.insertAll points).outcome = .ok report) (path : List Nat) :
    (t.insertAll points).tree.LeafAt path ↔
      t.LeafAt path ∨ ∃ q ∈ points, q.Kept t.depth ∧ path = q.route t.depth := by
  obtain ⟨hfull, -⟩ := Batch.eq_report ho
  exact h.leafAt_run points .empty hfull path

theorem VoxelModel.rootSize_lt {m : VoxelModel} {n : Nat} (h : m.rootSize = .ok n) : n < UInt32.size := by
  simp only [rootSize] at h
  split_ifs at h with he
  cases h
  unfold powerAbove
  split_ifs with hone
  · decide
  · have hlog : (m.extent - 1).log2 < 31 := (Nat.log2_lt (by omega)).mpr (by omega)
    have hlt : 2 ^ ((m.extent - 1).log2 + 1) < 2 ^ (32 : Nat) := Nat.pow_lt_pow_right (by decide) (by omega)
    exact hlt

theorem Point.route_eq_route_iff {d : Nat} {p q : Point} :
    (q.Kept d ∧ p.route d = q.route d) ↔ p.Kept d ∧ q.Kept d ∧ q.levels d = p.levels d := by
  constructor
  · rintro ⟨hq, he⟩
    have hp : p.Kept d := by rwa [← length_route_iff, he, length_route_iff]
    exact ⟨hp, hq, ((route_eq_iff hp hq).mp he).symm⟩
  · rintro ⟨hp, hq, he⟩
    exact ⟨hq, (route_eq_iff hp hq).mpr he.symm⟩

/-- Whatever its materials, the walk of any point through the records of a model ends, and it ends at a leaf exactly if the point and
some point of the model are on no plane and have as many planes below each coordinate. -/
theorem VoxelModel.compile_membership {m : VoxelModel} {config : ConvertConfig} {resolve : Resolver}
    {compiled : CompiledModel} (h : (m.compile config resolve).outcome = .ok compiled) :
    ∃ d, m.rootSize = .ok (2 ^ d) ∧ ∀ p : Point, ∃ j r,
      Record.Descent compiled.records p (compiled.records.size - 1) j ∧
      (∀ j', Record.Descent compiled.records p (compiled.records.size - 1) j' → j' = j) ∧
      compiled.records[j]? = some r ∧
      (r.isLeaf = true ↔ p.Kept d ∧ ∃ q ∈ m.points, q.Kept d ∧ q.levels d = p.levels d) := by
  obtain ⟨rootSize, start, hm, hc, ho, hf⟩ := VoxelModel.compile_eq_ok_iff.mp h
  have hstart := (Octree.Arena.create hc).withLimit config.nodeLimit
  have ha := hstart.insertAll m.points
  have hdepth : ((start.withLimit config.nodeLimit).insertAll m.points).tree.depth = start.depth :=
    (Octree.run_steps m.points .empty hstart).depth_eq
  have hroot := Octree.depth_create hc
  have hlt := Octree.depth_lt_of_create hc (VoxelModel.rootSize_lt hm)
  obtain ⟨records, hf', hsize, hb⟩ := exists_block ha resolve config.anchor
  obtain rfl : records = compiled.records := Except.ok.inj (hf'.symm.trans hf)
  have hs : compiled.records.size ≤ UInt32.size := hsize ▸ ha.size_le_word
  rw [hdepth] at hb
  refine ⟨start.depth, by rw [hroot]; exact hm, fun p => ?_⟩
  obtain ⟨j, r, hwalk, hr, hleaf⟩ := hb.descent ha hlt hs p
  refine ⟨j, r, hwalk, fun j' => hwalk.unique, hr, hleaf.trans ?_⟩
  have hpath := hstart.leafAt_insertAll ho (p.route start.depth)
  rw [Octree.depth_withLimit, or_iff_right (Octree.not_leafAt_create hc _ _)] at hpath
  refine hpath.trans ?_
  simp only [Point.route_eq_route_iff]
  constructor
  · rintro ⟨q, hq, hp, hkept⟩
    exact ⟨hp, q, hq, hkept⟩
  · rintro ⟨hp, q, hq, hkept⟩
    exact ⟨q, hq, hp, hkept⟩

theorem compileModel_membership_outside : ∃ compiled : CompiledModel,
    (compileModel ⟨⟨4, 4, 4⟩, [⟨0, 0, 0⟩, ⟨3, 1, 3⟩, ⟨3, 3, 3⟩]⟩ {} 7).outcome = .ok compiled ∧
      (∃ j r, Record.Descent compiled.records ⟨4000000000, 3, 77⟩ (compiled.records.size - 1) j ∧
        compiled.records[j]? = some r ∧ r.isLeaf = true) ∧
      ∃ j r, Record.Descent compiled.records ⟨3, 1, 3⟩ (compiled.records.size - 1) j ∧
        compiled.records[j]? = some r ∧ r.isLeaf = false := by
  have hc : Octree.create 4 Octree.defaultMaxDepth = .ok ⟨2, Octree.maxNodes, #[⟨2, .empty⟩]⟩ := rfl
  have ha := ((Octree.Arena.create hc).withLimit Octree.maxNodes).insertAll [⟨0, 0, 0⟩, ⟨3, 1, 3⟩, ⟨3, 3, 3⟩]
  obtain ⟨records, hf, -⟩ := exists_block ha (Resolver.seeded 7) (.fill .zero)
  have h : (compileModel ⟨⟨4, 4, 4⟩, [⟨0, 0, 0⟩, ⟨3, 1, 3⟩, ⟨3, 3, 3⟩]⟩ {} 7).outcome =
      .ok ⟨records, 2, #[⟨⟨3, 1, 3⟩, 2, 1⟩]⟩ :=
    VoxelModel.compile_eq_ok_iff.mpr ⟨4, _, rfl, hc, rfl, hf⟩
  obtain ⟨d, hd, hwalk⟩ := VoxelModel.compile_membership h
  obtain rfl : d = 2 := Nat.pow_right_injective (Nat.le_refl 2) (Except.ok.inj hd).symm
  obtain ⟨j, r, hj, -, hr, hleaf⟩ := hwalk ⟨4000000000, 3, 77⟩
  obtain ⟨j', r', hj', -, hr', hleaf'⟩ := hwalk ⟨3, 1, 3⟩
  refine ⟨_, h, ⟨j, r, hj, hr, hleaf.mpr (by decide)⟩, j', r', hj', hr', ?_⟩
  rw [Bool.eq_false_iff, Ne, hleaf']
  decide

end VoxelOctree
