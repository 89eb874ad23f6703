import Mathlib
import VoxelOctree.Proofs.Flatten.Links
import VoxelOctree.Proofs.Single

/-!
Where the records lie. Around an integer anchor that leaves room for 24 bits no center is rounded, so the cubes of the
records are those of exact arithmetic: a cube is cut into eight by its children, and the cubes of the terminal records
fill that of the root without overlapping.
-/

namespace VoxelOctree

def Side.toInt : Side → Int
  | above => 1
  | below => -1

namespace Octant

def step (k : Octant) (size : Nat) : Vec3 Int :=
  k.sides.map fun s => s.toInt * size

def displacement (size : Nat) : List Octant → Vec3 Int
  | [] => .fill 0
  | k :: path => (k.step (size / 2)).zipWith (· + ·) (displacement (size / 2) path)

end Octant

structure Vec3.IsInt (v : Vec3 Single) (a : Vec3 Int) : Prop where
  x : v.x.IsInt a.x
  y : v.y.IsInt a.y
  z : v.z.IsInt a.z

theorem Side.isInt_add {v : Single} {n : Int} (h : v.IsInt n) {size : Nat} (hn : n.natAbs + 2 * size ≤ 16777216)
    (s : Side) : (v + s.apply (.ofNat size)).IsInt (n + s.toInt * size) ∧
      (n + s.toInt * size).natAbs + size ≤ 16777216 := by
  have hsize : (Single.ofNat size).IsInt size := .ofNat (by omega)
  cases s with
  | above =>
    have hle : (n + toInt above * size).natAbs + size ≤ 16777216 := by
      simp only [toInt]
      omega
    refine ⟨h.add ?_ (by omega), hle⟩
    rw [toInt, one_mul]
    exact hsize
  | below =>
    have hle : (n + toInt below * size).natAbs + size ≤ 16777216 := by
      simp only [toInt]
      omega
    refine ⟨h.add ?_ (by omega), hle⟩
    rw [toInt, Int.neg_mul, one_mul]
    exact hsize.neg

/-- The center of a node of the given level is the integer point `a`, with room for the node around it. -/
structure Centered (position : Vec3 Single) (a : Vec3 Int) (level : Nat) : Prop where
  isInt : position.IsInt a
  room : ∀ c ∈ a.toList, c.natAbs + 2 ^ level ≤ 16777216

theorem Centered.child {position : Vec3 Single} {a : Vec3 Int} {level : Nat} (h : Centered position a (level + 1))
    (k : Octant) : Centered (position.add (k.offset (2 ^ level))) (a.zipWith (· + ·) (k.step (2 ^ level))) level := by
  have hroom (c : Int) (hc : c ∈ a.toList) : c.natAbs + 2 * 2 ^ level ≤ 16777216 := by
    have := h.room c hc
    rwa [Nat.pow_succ, Nat.mul_comm] at this
  obtain ⟨hx, hx'⟩ := Side.isInt_add h.isInt.x (hroom _ (by simp [Vec3.toList])) k.sides.x
  obtain ⟨hy, hy'⟩ := Side.isInt_add h.isInt.y (hroom _ (by simp [Vec3.toList])) k.sides.y
  obtain ⟨hz, hz'⟩ := Side.isInt_add h.isInt.z (hroom _ (by simp [Vec3.toList])) k.sides.z
  refine ⟨⟨hx, hy, hz⟩, ?_⟩
  intro c hc
  simp only [Vec3.zipWith, Vec3.toList, List.mem_cons, List.not_mem_nil, or_false] at hc
  rcases hc with rfl | rfl | rfl
  · exact hx'
  · exact hy'
  · exact hz'

noncomputable def Single.value (v : Single) : ℝ :=
  v.units / 2 ^ BinaryFormat.binary32.scale

theorem Single.IsInt.value_eq {v : Single} {n : Int} (h : v.IsInt n) : v.value = n := by
  rw [value, h.units_eq]
  push_cast
  exact mul_div_cancel_right₀ _ (by positivity)

def Vec3.cube (center : Vec3 ℝ) (size : ℝ) : Set (ℝ × ℝ × ℝ) :=
  Set.Icc (center.x - size) (center.x + size) ×ˢ Set.Icc (center.y - size) (center.y + size) ×ˢ
    Set.Icc (center.z - size) (center.z + size)

def Vec3.cubeAt (a : Vec3 Int) (size : Nat) : Set (ℝ × ℝ × ℝ) :=
  (a.map fun n : Int => (n : ℝ)).cube size

namespace Side

variable {n : Int} {size : Nat}

theorem mem_Icc_double_iff (x : ℝ) : x ∈ Set.Icc ((n : ℝ) - (2 * size : Nat)) (n + (2 * size : Nat)) ↔
    ∃ s : Side, x ∈ Set.Icc (((n + s.toInt * size : Int) : ℝ) - size) ((n + s.toInt * size : Int) + size) := by
  have hsize : (0 : ℝ) ≤ size := Nat.cast_nonneg size
  constructor
  · rintro ⟨hl, hu⟩
    push_cast at hl hu
    rcases le_total x n with h | h
    · refine ⟨below, ?_, ?_⟩ <;> simp only [toInt] <;> push_cast <;> linarith
    · refine ⟨above, ?_, ?_⟩ <;> simp only [toInt] <;> push_cast <;> linarith
  · rintro ⟨s, hl, hu⟩
    cases s <;> simp only [toInt] at hl hu <;> push_cast at hl hu <;> constructor <;> push_cast <;> linarith

theorem disjoint_Ioo {s s' : Side} (h : s ≠ s') :
    Disjoint (Set.Ioo (((n + s.toInt * size : Int) : ℝ) - size) ((n + s.toInt * size : Int) + size))
      (Set.Ioo (((n + s'.toInt * size : Int) : ℝ) - size) ((n + s'.toInt * size : Int) + size)) := by
  rw [Set.disjoint_left]
  rintro x ⟨hl, hu⟩ ⟨hl', hu'⟩
  cases s <;> cases s' <;> simp only [toInt] at hl hu hl' hu' <;> push_cast at hl hu hl' hu'
  · exact h rfl
  · linarith
  · linarith
  · exact h rfl

end Side

section Cubes

variable {a : Vec3 Int} {size : Nat}

theorem Vec3.cubeAt_double : a.cubeAt (2 * size) = ⋃ k : Octant, (a.zipWith (· + ·) (k.step size)).cubeAt size := by
  ext ⟨x, y, z⟩
  simp only [cubeAt, cube, map, Set.mem_prod, Side.mem_Icc_double_iff, Set.mem_iUnion]
  constructor
  · rintro ⟨⟨sx, hx⟩, ⟨sy, hy⟩, ⟨sz, hz⟩⟩
    refine ⟨Octant.ofSides ⟨sx, sy, sz⟩, ?_⟩
    simp only [Octant.step, Octant.sides_ofSides]
    exact ⟨hx, hy, hz⟩
  · rintro ⟨k, hx, hy, hz⟩
    exact ⟨⟨k.sides.x, hx⟩, ⟨k.sides.y, hy⟩, ⟨k.sides.z, hz⟩⟩

theorem Vec3.cubeAt_subset (k : Octant) : (a.zipWith (· + ·) (k.step size)).cubeAt size ⊆ a.cubeAt (2 * size) := by
  rw [cubeAt_double]
  exact Set.subset_iUnion (fun k : Octant => (a.zipWith (· + ·) (k.step size)).cubeAt size) k

theorem Vec3.interior_cube (center : Vec3 ℝ) (size : ℝ) : interior (center.cube size) =
    Set.Ioo (center.x - size) (center.x + size) ×ˢ Set.Ioo (center.y - size) (center.y + size) ×ˢ
      Set.Ioo (center.z - size) (center.z + size) := by
  rw [cube, interior_prod_eq, interior_prod_eq, interior_Icc, interior_Icc, interior_Icc]

theorem Vec3.disjoint_interior_cubeAt {k k' : Octant} (h : k ≠ k') :
    Disjoint (interior ((a.zipWith (· + ·) (k.step size)).cubeAt size))
      (interior ((a.zipWith (· + ·) (k'.step size)).cubeAt size)) := by
  rw [cubeAt, cubeAt, interior_cube, interior_cube, Set.disjoint_prod, Set.disjoint_prod]
  by_cases hx : k.sides.x = k'.sides.x
  · by_cases hy : k.sides.y = k'.sides.y
    · refine .inr (.inr (Side.disjoint_Ioo fun hz => h ?_))
      have hsides : (⟨k.sides.x, k.sides.y, k.sides.z⟩ : Vec3 Side) = ⟨k'.sides.x, k'.sides.y, k'.sides.z⟩ := by
        rw [hx, hy, hz]
      rw [← Octant.ofSides_sides k, ← Octant.ofSides_sides k']
      exact congrArg Octant.ofSides hsides
    · exact .inr (.inl (Side.disjoint_Ioo hy))
  · exact .inl (Side.disjoint_Ioo hx)

end Cubes

theorem Centered.level_le {position : Vec3 Single} {a : Vec3 Int} {level : Nat} (h : Centered position a level) :
    level ≤ 24 := by
  have hroom := h.room a.x (by simp [Vec3.toList])
  exact (Nat.pow_le_pow_iff_right (show 1 < 2 by decide)).mp (show 2 ^ level ≤ 2 ^ 24 by omega)

namespace Record

noncomputable def cube (r : Record) : Set (ℝ × ℝ × ℝ) :=
  (r.position.map Single.value).cube r.size.value

inductive Leads (records : Array Record) : (i : Nat) → (path : List Octant) → (j : Nat) → Prop
  | self {i : Nat} : Leads records i [] i
  | link {i j : Nat} {path : List Octant} {r : Record} (k : Octant) (hr : records[i]? = some r)
      (hi : r.isInternal = true) (hl : Leads records (r.link k) path j) : Leads records i (k :: path) j

end Record

namespace Block

variable {t : Octree} {resolve : Resolver} {records : Array Record} {ids : List Nat} {id level lo hi : Nat}
  {position : Vec3 Single} {a : Vec3 Int}

theorem exists_leads (h : Block t resolve records ids id level position lo hi) (hs : records.size ≤ UInt32.size)
    {j : Nat} (hlo : lo ≤ j) (hhi : j < hi) : ∃ path, Record.Leads records (hi - 1) path j := by
  induction h with
  | @terminal id level lo kind position hn hk hid hr =>
    obtain rfl : j = lo := by omega
    exact ⟨[], .self⟩
  | @internal id level first lo last position cut hn hlo' hlast hc hid hr ih =>
    by_cases hj : j = last
    · exact ⟨[], hj ▸ .self⟩
    · obtain ⟨k, hk, hk'⟩ := Octant.exists_slot (f := cut) (j := j) (by omega) (by omega)
      obtain ⟨path, hp⟩ := ih k hk hk'
      refine ⟨k :: path, .link k hr rfl ?_⟩
      rwa [Record.link_internal position _ (Nat.zero_lt_of_lt (hc k).lt) ((hc k).le_size.trans hs)]

theorem leads (h : Block t resolve records ids id level position lo hi) (hs : records.size ≤ UInt32.size)
    (ha : Centered position a level) {path : List Octant} {j : Nat} (hp : Record.Leads records (hi - 1) path j) :
    ∃ id' level' position' lo', level = level' + path.length ∧
      Block t resolve records ids id' level' position' lo' (j + 1) ∧
      Centered position' (a.zipWith (· + ·) (Octant.displacement (2 ^ level) path)) level' := by
  induction path generalizing id level lo hi position a with
  | nil =>
    cases hp
    have hlt := h.lt
    refine ⟨id, level, position, lo, rfl, ?_, ?_⟩
    · rwa [Nat.sub_add_cancel (by omega)]
    · simpa [Octant.displacement, Vec3.zipWith, Vec3.fill] using ha
  | cons k path ih =>
    obtain ⟨last, rfl⟩ := Nat.exists_eq_add_one.mpr (Nat.zero_lt_of_lt h.lt)
    cases hp with
    | link _ hr hi hl =>
      obtain ⟨below, first, cut, rfl, hn, hlo, hlast, hlink, hc, rfl, -⟩ := h.of_internal hs hr hi
      have hk := hc k
      rw [← hlink k] at hk
      obtain ⟨id', level', position', lo', hlevel, hb, hcenter⟩ := ih hk (ha.child k) hl
      refine ⟨id', level', position', lo', by rw [hlevel, List.length_cons, Nat.add_assoc], hb, ?_⟩
      have hhalf : 2 ^ (below + 1) / 2 = 2 ^ below := by rw [Nat.pow_succ, Nat.mul_div_cancel _ (by decide)]
      simpa [Octant.displacement, hhalf, Vec3.zipWith, Int.add_assoc] using hcenter

theorem cube_eq {i : Nat} {r : Record} (h : Block t resolve records ids id level position lo (i + 1))
    (hs : records.size ≤ UInt32.size) (ha : Centered position a level) (hr : records[i]? = some r) :
    r.position.IsInt a ∧ r.size.IsInt (2 ^ level : Nat) ∧ r.cube = a.cubeAt (2 ^ level) := by
  have hl := ha.level_le
  have hposition := (h.own (by omega) hs hr).2
  have hsize : r.size = Single.ofNat (2 ^ level) := by
    obtain ⟨n, hn, hdes⟩ := h.describes (by omega) hr
    obtain ⟨kind, hn', -⟩ := h.node
    obtain rfl := Option.some.inj (hn.symm.trans hn')
    exact hdes.size
  have hint : r.size.IsInt (2 ^ level : Nat) := by
    rw [hsize]
    exact .ofNat ((Nat.le_add_left _ _).trans (ha.room a.x (by simp [Vec3.toList])))
  refine ⟨hposition ▸ ha.isInt, hint, ?_⟩
  rw [Record.cube, hposition, hint.value_eq, Vec3.map, ha.isInt.x.value_eq, ha.isInt.y.value_eq, ha.isInt.z.value_eq]
  rfl

theorem placed (h : Block t resolve records ids id level position lo hi) (hs : records.size ≤ UInt32.size)
    (ha : Centered position a level) {path : List Octant} {j : Nat} (hp : Record.Leads records (hi - 1) path j) :
    ∃ r, records[j]? = some r ∧ r.position.IsInt (a.zipWith (· + ·) (Octant.displacement (2 ^ level) path)) ∧
      r.size.IsInt (2 ^ level / 2 ^ path.length : Nat) := by
  obtain ⟨id', level', position', lo', rfl, hb, hcenter⟩ := h.leads hs ha hp
  obtain ⟨r, hr⟩ : ∃ r, records[j]? = some r := ⟨_, Array.getElem?_eq_getElem (Nat.lt_of_succ_le hb.le_size)⟩
  obtain ⟨hposition, hint, -⟩ := hb.cube_eq hs hcenter hr
  refine ⟨r, hr, hposition, ?_⟩
  rwa [Nat.pow_add, Nat.mul_div_cancel _ (Nat.two_pow_pos _)]

theorem nested {i : Nat} {r : Record} (h : Block t resolve records ids id level position lo (i + 1))
    (hs : records.size ≤ UInt32.size) (ha : Centered position a level) (hr : records[i]? = some r)
    (hi : r.isInternal = true) (k : Octant) : ∃ c, records[r.link k]? = some c ∧ c.cube ⊆ r.cube := by
  obtain ⟨below, first, cut, rfl, -, -, -, hlink, hc, -⟩ := h.of_internal hs hr hi
  have hk := hc k
  rw [← hlink k] at hk
  obtain ⟨c, hc'⟩ : ∃ c, records[r.link k]? = some c := ⟨_, Array.getElem?_eq_getElem (Nat.lt_of_succ_le hk.le_size)⟩
  refine ⟨c, hc', ?_⟩
  rw [(h.cube_eq hs ha hr).2.2, (hk.cube_eq hs (ha.child k) hc').2.2, Nat.pow_succ, Nat.mul_comm]
  exact Vec3.cubeAt_subset k

theorem exists_slot_of_terminal {cut : Nat → Nat} {i last : Nat} {r r' : Record} (hlast : records[last]? = some r')
    (hi : r'.isInternal = true) (hr : records[i]? = some r) (ht : r.isInternal = false) (hcut : cut 8 = last)
    (hin : cut 0 ≤ i ∧ i < last + 1) : ∃ k : Octant, cut k.val ≤ i ∧ i < cut (k.val + 1) := by
  have hne : i ≠ last := by
    rintro rfl
    obtain rfl := Option.some.inj (hr.symm.trans hlast)
    exact Bool.false_ne_true (ht.symm.trans hi)
  exact Octant.exists_slot (f := cut) (j := i) hin.1 (by omega)

theorem mem_cubeAt_iff (h : Block t resolve records ids id level position lo hi) (hs : records.size ≤ UInt32.size)
    (ha : Centered position a level) (p : ℝ × ℝ × ℝ) : p ∈ a.cubeAt (2 ^ level) ↔
      ∃ j r, lo ≤ j ∧ j < hi ∧ records[j]? = some r ∧ r.isInternal = false ∧ p ∈ r.cube := by
  induction h generalizing a with
  | @terminal id level lo kind position hn hk hid hr =>
    obtain ⟨-, -, hcube⟩ := (Block.terminal hn hk hid hr).cube_eq hs ha hr
    rw [← hcube]
    constructor
    · intro hp
      exact ⟨lo, _, Nat.le_refl _, Nat.lt_succ_self _, hr, Record.terminal_isInternal .., hp⟩
    · rintro ⟨j, r, hlo, hhi, hr', -, hp⟩
      obtain rfl : j = lo := by omega
      obtain rfl := Option.some.inj (hr.symm.trans hr')
      exact hp
  | @internal id level first lo last position cut hn hlo hlast hc hid hr ih =>
    -- the cube is the union of its octants, and each of these holds a block of its own
    rw [Nat.pow_succ, Nat.mul_comm, Vec3.cubeAt_double, Set.mem_iUnion]
    simp only [ih _ (ha.child _)]
    have hmono (m n : Nat) (hmn : m ≤ n) (hn : n ≤ 8) : cut m ≤ cut n :=
      Octant.monotone_slots (fun k => (hc k).lt.le) hmn hn
    constructor
    · rintro ⟨k, j, r, hj, hj', hp⟩
      have hzero := hmono 0 k.val (Nat.zero_le _) k.isLt.le
      have height := hmono (k.val + 1) 8 k.isLt (Nat.le_refl 8)
      exact ⟨j, r, by omega, by omega, hp⟩
    · rintro ⟨j, r, hj, hj', hr', hi, hp⟩
      obtain ⟨k, hk, hk'⟩ := exists_slot_of_terminal hr rfl hr' hi hlast (hlo ▸ ⟨hj, hj'⟩)
      exact ⟨k, j, r, hk, hk', hr', hi, hp⟩

theorem iUnion_cubes (h : Block t resolve records ids id level position 0 records.size)
    (hs : records.size ≤ UInt32.size) (ha : Centered position a level) :
    ⋃ r ∈ {r | r ∈ records ∧ r.isInternal = false}, r.cube = a.cubeAt (2 ^ level) := by
  ext p
  simp only [Set.mem_iUnion, Set.mem_ofPred_eq, exists_prop]
  refine Iff.trans ?_ (h.mem_cubeAt_iff hs ha p).symm
  constructor
  · rintro ⟨r, ⟨hr, ht⟩, hp⟩
    obtain ⟨j, hj, rfl⟩ := Array.mem_iff_getElem.mp hr
    exact ⟨j, _, Nat.zero_le j, hj, Array.getElem?_eq_getElem hj, ht, hp⟩
  · rintro ⟨j, r, -, -, hr, ht, hp⟩
    exact ⟨r, ⟨Array.mem_of_getElem? hr, ht⟩, hp⟩

theorem disjoint_cubes (h : Block t resolve records ids id level position lo hi) (hs : records.size ≤ UInt32.size)
    (ha : Centered position a level) {i j : Nat} {r r' : Record} (hin : lo ≤ i ∧ i < hi) (hjn : lo ≤ j ∧ j < hi)
    (hne : i ≠ j) (hr : records[i]? = some r) (hr' : records[j]? = some r') (ht : r.isInternal = false)
    (ht' : r'.isInternal = false) : Disjoint (interior r.cube) (interior r'.cube) := by
  induction h generalizing a with
  | terminal => omega
  | @internal id level first lo last position cut hn hlo hlast hc hid hlast' ih =>
    -- a terminal record of the block lies in one octant, with all of its cube
    have hslot {i : Nat} {r : Record} (hi : lo ≤ i ∧ i < last + 1) (hr : records[i]? = some r)
        (ht : r.isInternal = false) : ∃ k : Octant, (cut k.val ≤ i ∧ i < cut (k.val + 1)) ∧
          r.cube ⊆ (a.zipWith (· + ·) (k.step (2 ^ level))).cubeAt (2 ^ level) := by
      obtain ⟨k, hk, hk'⟩ := exists_slot_of_terminal hlast' rfl hr ht hlast (hlo ▸ hi)
      refine ⟨k, ⟨hk, hk'⟩, fun p hp => ?_⟩
      exact ((hc k).mem_cubeAt_iff hs (ha.child k) p).mpr ⟨i, r, hk, hk', hr, ht, hp⟩
    obtain ⟨k, hk, hsub⟩ := hslot hin hr ht
    obtain ⟨k', hk', hsub'⟩ := hslot hjn hr' ht'
    by_cases he : k = k'
    · subst he
      exact ih k (ha.child k) hk hk'
    · exact (Vec3.disjoint_interior_cubeAt he).mono (interior_mono hsub) (interior_mono hsub')

end Block

/-- The records of an octree around the integer point `a` in exact arithmetic: each center is `a` moved by the steps of its
path, a cube holds those of its children, and the cubes of the terminal records fill that of the root. -/
structure Octree.Exact (t : Octree) (a : Vec3 Int) (records : Array Record) : Prop where
  reached : ∀ j < records.size, ∃ path, Record.Leads records (records.size - 1) path j
  placed : ∀ (path : List Octant) (j : Nat), Record.Leads records (records.size - 1) path j → ∃ r, records[j]? = some r ∧
    r.position.IsInt (a.zipWith (· + ·) (Octant.displacement t.rootSize path)) ∧
      r.size.IsInt (t.rootSize / 2 ^ path.length : Nat)
  nested : ∀ (i : Nat) (r : Record), records[i]? = some r → r.isInternal = true → ∀ k : Octant,
    ∃ c, records[r.link k]? = some c ∧ c.cube ⊆ r.cube
  disjoint : ∀ (i j : Nat) (r r' : Record), i ≠ j → records[i]? = some r → records[j]? = some r' →
    r.isInternal = false → r'.isInternal = false → Disjoint (interior r.cube) (interior r'.cube)
  filled : ⋃ r ∈ {r | r ∈ records ∧ r.isInternal = false}, r.cube =
    Set.Icc ((a.x : ℝ) - t.rootSize) (a.x + t.rootSize) ×ˢ Set.Icc ((a.y : ℝ) - t.rootSize) (a.y + t.rootSize) ×ˢ
      Set.Icc ((a.z : ℝ) - t.rootSize) (a.z + t.rootSize)

/-- Around an integer anchor with room for 24 bits no center is rounded. -/
theorem flatten_exact {t : Octree} (h : t.Reachable) (resolve : Resolver) {anchor : Vec3 Single} {a : Vec3 Int}
    (ha : anchor.IsInt a) (hroom : ∀ c ∈ a.toList, c.natAbs + t.rootSize ≤ 16777216) :
    ∃ records : Array Record, t.flatten resolve anchor = .ok records ∧ t.Exact a records := by
  have harena := h.arena
  obtain ⟨records, hf, hsize, hb⟩ := exists_block harena resolve anchor
  have hs : records.size ≤ UInt32.size := hsize ▸ harena.size_le_word
  have hcenter : Centered anchor a t.depth := ⟨ha, hroom⟩
  refine ⟨records, hf, ?reached, ?placed, ?nested, ?disjoint, ?filled⟩
  case reached => exact fun j hj => hb.exists_leads hs (Nat.zero_le j) hj
  case placed => exact fun path j hp => hb.placed hs hcenter hp
  case nested =>
    intro i r hr hi k
    obtain ⟨path, hp⟩ := hb.exists_leads hs (Nat.zero_le i) (Array.getElem?_eq_some_iff.mp hr).1
    obtain ⟨id, level, position, lo, -, hb', hcenter'⟩ := hb.leads hs hcenter hp
    exact hb'.nested hs hcenter' hr hi k
  case disjoint =>
    intro i j r r' hne hr hr' ht ht'
    have hi := (Array.getElem?_eq_some_iff.mp hr).1
    have hj := (Array.getElem?_eq_some_iff.mp hr').1
    exact hb.disjoint_cubes hs hcenter ⟨Nat.zero_le i, hi⟩ ⟨Nat.zero_le j, hj⟩ hne hr hr' ht ht'
  case filled => exact hb.iUnion_cubes hs hcenter

theorem flatten_exact_far : ∃ t : Octree, t.Reachable ∧ ∃ records : Array Record,
    t.flatten (Resolver.seeded 7) ⟨⟨0x4b7ffffc⟩, ⟨0x80000000⟩, ⟨0xcb7ffffc⟩⟩ = .ok records ∧ records.size = 25 ∧
      ⋃ r ∈ {r | r ∈ records ∧ r.isInternal = false}, r.cube =
        Set.Icc (((16777212 : Int) : ℝ) - (4 : Nat)) ((16777212 : Int) + (4 : Nat)) ×ˢ
          Set.Icc (((0 : Int) : ℝ) - (4 : Nat)) ((0 : Int) + (4 : Nat)) ×ˢ
          Set.Icc (((-16777212 : Int) : ℝ) - (4 : Nat)) ((-16777212 : Int) + (4 : Nat)) := by
  have h : (Octree.exec ⟨2, Octree.maxNodes, #[⟨2, .empty⟩]⟩
      [.insertAll [⟨0, 0, 0⟩, ⟨3, 1, 3⟩, ⟨3, 3, 3⟩]]).Reachable := ⟨4, 16, _, _, rfl, rfl⟩
  have ha : (⟨⟨0x4b7ffffc⟩, ⟨0x80000000⟩, ⟨0xcb7ffffc⟩⟩ : Vec3 Single).IsInt ⟨16777212, 0, -16777212⟩ :=
    ⟨⟨by decide, by decide⟩, ⟨by decide, by decide⟩, ⟨by decide, by decide⟩⟩
  obtain ⟨records, hf, hexact⟩ := flatten_exact h (Resolver.seeded 7) ha (by decide)
  obtain ⟨records', hf', hsize, -⟩ := exists_block h.arena (Resolver.seeded 7)
    (⟨⟨0x4b7ffffc⟩, ⟨0x80000000⟩, ⟨0xcb7ffffc⟩⟩ : Vec3 Single)
  obtain rfl := Except.ok.inj (hf.symm.trans hf')
  refine ⟨_, h, records, hf, ?_, hexact.filled⟩
  rw [hsize]
  decide

end VoxelOctree
