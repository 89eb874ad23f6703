import VoxelOctree.Proofs.Flatten.Block

namespace VoxelOctree

/-- Where the children of a node lie from its center, slot by slot, along x, y and z. -/
def Octant.signs : Octant → Vec3 Int
  | 0 => ⟨1, 1, 1⟩
  | 1 => ⟨-1, -1, -1⟩
  | 2 => ⟨1, -1, -1⟩
  | 3 => ⟨1, 1, -1⟩
  | 4 => ⟨-1, 1, -1⟩
  | 5 => ⟨1, -1, 1⟩
  | 6 => ⟨-1, -1, 1⟩
  | 7 => ⟨-1, 1, 1⟩

def Single.signed (sign : Int) (size : Nat) : Single :=
  if sign < 0 then -ofNat size else ofNat size

theorem Octant.offset_eq (size : Nat) : ∀ k : Octant, k.offset size = k.signs.map fun sign => .signed sign size
  | 0 | 1 | 2 | 3 | 4 | 5 | 6 | 7 => rfl

namespace Record

inductive Below (records : Array Record) : (i j : Nat) → Prop
  | self {i : Nat} (hi : i < records.size) : Below records i i
  | link {i j : Nat} {r : Record} (k : Octant) (hr : records[i]? = some r) (hi : r.isInternal = true)
      (hb : Below records (r.link k) j) : Below records i j

structure Describes (r : Record) (n : Node) : Prop where
  extent : r.extent = n.size
  size : r.size = Single.ofNat n.size
  isLeaf : r.isLeaf = n.kind.isLeaf
  isEmpty : r.isEmpty = n.kind.isEmpty

/-- What the links of an array of records are like when children stand before their parents. The blocks of the
children of record `i` lie between the positions `cut 0`, …, `cut 8 = i`. -/
structure Linked (records : Array Record) : Prop where
  blocks : ∀ (i : Nat) (r : Record), records[i]? = some r → r.isInternal = true → ∃ cut : Nat → Nat,
    cut 8 = i ∧ (∀ j, Below records i j ↔ cut 0 ≤ j ∧ j ≤ i) ∧ ∀ k : Octant, r.link k + 1 = cut (k.val + 1) ∧
      ∀ j, Below records (r.link k) j ↔ cut k.val ≤ j ∧ j ≤ r.link k
  increasing : ∀ (i : Nat) (r : Record), records[i]? = some r → r.isInternal = true →
    (∀ j k : Octant, j < k → r.link j < r.link k) ∧ r.link 7 + 1 = i
  named : ∀ j, j + 1 < records.size → ∃! slot : Nat × Octant,
    ∃ r, records[slot.1]? = some r ∧ r.isInternal = true ∧ r.link slot.2 = j
  child : ∀ (i : Nat) (r : Record), records[i]? = some r → r.isInternal = true → ∀ k : Octant,
    ∃ c, records[r.link k]? = some c ∧ c.extent = r.extent / 2 ∧
      c.position.x = r.position.x + .signed k.signs.x (r.extent / 2) ∧
      c.position.y = r.position.y + .signed k.signs.y (r.extent / 2) ∧
      c.position.z = r.position.z + .signed k.signs.z (r.extent / 2)
  terminal : ∀ (i : Nat) (r : Record), records[i]? = some r → r.isInternal = false →
    r.children = Vector.replicate 8 nullChild ∧ r.isEmpty = !r.isLeaf

theorem terminal_isInternal (position : Vec3 Single) (size : Nat) (m : Material) (isLeaf : Bool) :
    (terminal position size m isLeaf).isInternal = false := by
  cases isLeaf <;> rfl

theorem Below.eq_of_terminal {records : Array Record} {i j : Nat} {r : Record} (h : Below records i j)
    (hr : records[i]? = some r) (hi : r.isInternal = false) : j = i := by
  cases h with
  | self => rfl
  | link k hr' hi' hb =>
    obtain rfl := Option.some.inj (hr.symm.trans hr')
    rw [hi] at hi'
    cases hi'

end Record

namespace Block

variable {t : Octree} {resolve : Resolver} {records : Array Record} {ids : List Nat} {id level lo hi i : Nat}
  {position : Vec3 Single} {r : Record}

theorem describes (h : Block t resolve records ids id level position lo (i + 1)) (hl : level < 32)
    (hr : records[i]? = some r) : ∃ n, t.nodes[id]? = some n ∧ r.Describes n := by
  cases h with
  | @terminal _ _ _ kind _ hn hk hid hr' =>
    obtain rfl := Option.some.inj (hr.symm.trans hr')
    refine ⟨_, hn, Record.extent_of_size hl rfl, rfl, rfl, ?_⟩
    cases kind with
    | empty => rfl
    | leaf => rfl
    | internal first => exact absurd rfl (hk first)
  | internal hn hlo hlast hc hid hr' =>
    obtain rfl := Option.some.inj (hr.symm.trans hr')
    exact ⟨_, hn, Record.extent_of_size hl rfl, rfl, rfl, rfl⟩

theorem own (h : Block t resolve records ids id level position lo (i + 1)) (hl : level < 32)
    (hs : records.size ≤ UInt32.size) (hr : records[i]? = some r) : r.extent = 2 ^ level ∧ r.position = position := by
  cases hi : r.isInternal with
  | false =>
    obtain ⟨kind, -, -, -, rfl⟩ := h.of_terminal hr hi
    exact ⟨Record.extent_of_size hl rfl, rfl⟩
  | true =>
    obtain ⟨below, first, cut, rfl, -, -, -, -, -, hposition, hsize⟩ := h.of_internal hs hr hi
    exact ⟨Record.extent_of_size hl hsize, hposition⟩

theorem below_iff (hs : records.size ≤ UInt32.size) (h : Block t resolve records ids id level position lo hi)
    (j : Nat) : Record.Below records (hi - 1) j ↔ lo ≤ j ∧ j < hi := by
  induction h with
  | @terminal id level lo kind position hn hk hid hr =>
    constructor
    · intro hb
      have := hb.eq_of_terminal hr (Record.terminal_isInternal ..)
      omega
    · rintro ⟨hlo, hhi⟩
      obtain rfl : j = lo := by omega
      exact .self (Array.getElem?_eq_some_iff.mp hr).1
  | @internal id level first lo last position cut hn hlo hlast hc hid hr ih =>
    have hlink (k : Octant) := Record.link_internal position (2 ^ (level + 1)) (Nat.zero_lt_of_lt (hc k).lt)
      ((hc k).le_size.trans hs)
    have hmono (m n : Nat) (hmn : m ≤ n) (hn : n ≤ 8) : cut m ≤ cut n :=
      Octant.monotone_slots (fun k => (hc k).lt.le) hmn hn
    constructor
    · intro hb
      cases hb with
      | self => exact ⟨by have := hmono 0 8 (by omega) (by omega); omega, Nat.lt_succ_self _⟩
      | link k hr' hi' hb =>
        obtain rfl := Option.some.inj (hr.symm.trans hr')
        rw [hlink, ih] at hb
        have h0 := hmono 0 k.val (by omega) (by omega)
        have h8 := hmono (k.val + 1) 8 (by omega) (by omega)
        omega
    · rintro ⟨hj, hj'⟩
      by_cases he : j = last
      · subst he
        exact .self (Array.getElem?_eq_some_iff.mp hr).1
      · obtain ⟨k, hk, hk'⟩ := Octant.exists_slot (f := cut) (j := j) (by omega) (by omega)
        refine .link k hr rfl ?_
        rw [hlink, ih]
        exact ⟨hk, hk'⟩

theorem below_iff_le (h : Block t resolve records ids id level position lo (i + 1))
    (hs : records.size ≤ UInt32.size) (j : Nat) : Record.Below records i j ↔ lo ≤ j ∧ j ≤ i := by
  have hb := h.below_iff hs j
  rwa [Nat.add_sub_cancel, Nat.lt_succ_iff] at hb

theorem exists_named (hs : records.size ≤ UInt32.size) (h : Block t resolve records ids id level position lo hi)
    {j : Nat} (hlo : lo ≤ j) (hhi : j + 1 < hi) :
    ∃ (i : Nat) (r : Record) (k : Octant), records[i]? = some r ∧ r.isInternal = true ∧ r.link k = j := by
  induction h with
  | terminal => omega
  | @internal id level first lo last position cut hn hlo' hlast hc hid hr ih =>
    obtain ⟨k, hk, hk'⟩ := Octant.exists_slot (f := cut) (j := j) (by omega) (by omega)
    by_cases he : j + 1 < cut (k.val + 1)
    · exact ih k hk he
    · refine ⟨last, _, k, hr, rfl, ?_⟩
      rw [Record.link_internal position _ (by omega) ((hc k).le_size.trans hs)]
      omega

theorem inner (h : Block t resolve records ids id level position 0 records.size) (hr : records[i]? = some r) :
    ∃ id' level' position' lo', level' ≤ level ∧ Block t resolve records ids id' level' position' lo' (i + 1) := by
  have hi := (Array.getElem?_eq_some_iff.mp hr).1
  obtain ⟨id', level', position', lo', hlevel, -, hb⟩ := h.exists_inner (Nat.zero_le i) hi
  exact ⟨id', level', position', lo', hlevel, hb⟩

theorem numbered (h : Block t resolve records ids id level position 0 records.size) (hl : level < 32)
    (hs : records.size ≤ UInt32.size) (hr : records[i]? = some r) :
    ∃ id n, ids[i]? = some id ∧ t.nodes[id]? = some n ∧ r.Describes n ∧
      ∀ first, n.kind = .internal first → ∀ k : Octant, ids[r.link k]? = some (first + k.val) := by
  obtain ⟨id, level, position, lo, hlevel, hb⟩ := h.inner hr
  obtain ⟨n, hn, hdes⟩ := hb.describes (by omega) hr
  obtain ⟨-, -, hid⟩ := hb.node
  refine ⟨id, n, hid, hn, hdes, ?_⟩
  intro first hk k
  have hi : r.isInternal = true := by simp [Record.isInternal, hdes.isLeaf, hdes.isEmpty, hk, Kind.isLeaf, Kind.isEmpty]
  obtain ⟨below, first', cut, -, hn', -, -, hlink, hc, -⟩ := hb.of_internal hs hr hi
  obtain rfl := Option.some.inj (hn.symm.trans hn')
  obtain rfl : first' = first := by simpa using hk
  obtain ⟨-, -, hid⟩ := (hc k).node
  rwa [← hlink k, Nat.add_sub_cancel] at hid

theorem existsUnique_named (h : Block t resolve records ids id level position 0 records.size) (ha : t.Arena)
    (hl : level < 32) (hs : records.size ≤ UInt32.size) (hids : ids.Nodup) {j : Nat} (hj : j + 1 < records.size) :
    ∃! slot : Nat × Octant, ∃ r, records[slot.1]? = some r ∧ r.isInternal = true ∧ r.link slot.2 = j := by
  have hparent (i : Nat) (r : Record) (k : Octant) (hr : records[i]? = some r) (hi : r.isInternal = true)
      (hk : r.link k = j) : ∃ a level first, ids[i]? = some a ∧ t.nodes[a]? = some ⟨level, .internal first⟩ ∧
        ids[j]? = some (first + k.val) := by
    obtain ⟨id, n, hid, hn, hdes, hnext⟩ := h.numbered hl hs hr
    obtain ⟨id', level', position', lo', -, hb⟩ := h.inner hr
    obtain ⟨below, first, cut, -, hn', -⟩ := hb.of_internal hs hr hi
    obtain ⟨-, -, hid'⟩ := hb.node
    obtain rfl : id = id' := Option.some.inj (hid.symm.trans hid')
    obtain rfl := Option.some.inj (hn.symm.trans hn')
    exact ⟨id, below + 1, first, hid, hn, hk ▸ hnext first rfl k⟩
  obtain ⟨i, r, k, hr, hi, hk⟩ := h.exists_named hs (Nat.zero_le j) hj
  obtain ⟨a, l, first, ha', hn, hchild⟩ := hparent i r k hr hi hk
  refine ⟨(i, k), ⟨r, hr, hi, hk⟩, ?_⟩
  rintro ⟨i', k'⟩ ⟨r', hr', hi', hk'⟩
  obtain ⟨a', l', first', ha'', hn', hchild'⟩ := hparent i' r' k' hr' hi' hk'
  obtain ⟨rfl, rfl⟩ := ha.slot_unique hn' hn (Option.some.inj (hchild'.symm.trans hchild))
  have hlt : i' < ids.length := (List.getElem?_eq_some_iff.mp ha'').1
  have he : i' = i := (List.getElem?_inj hlt hids).mp (ha''.trans ha'.symm)
  rw [he]

theorem blocks (h : Block t resolve records ids id level position lo (i + 1)) (hs : records.size ≤ UInt32.size)
    (hr : records[i]? = some r) (hi : r.isInternal = true) : ∃ cut : Nat → Nat,
      cut 8 = i ∧ (∀ j, Record.Below records i j ↔ cut 0 ≤ j ∧ j ≤ i) ∧ ∀ k : Octant, r.link k + 1 = cut (k.val + 1) ∧
        ∀ j, Record.Below records (r.link k) j ↔ cut k.val ≤ j ∧ j ≤ r.link k := by
  obtain ⟨below, first, cut, -, -, hlo, hlast, hlink, hc, -⟩ := h.of_internal hs hr hi
  refine ⟨cut, hlast, hlo ▸ h.below_iff_le hs, fun k => ⟨hlink k, ?_⟩⟩
  have hb := hc k
  rw [← hlink k] at hb
  exact hb.below_iff_le hs

theorem increasing (h : Block t resolve records ids id level position lo (i + 1)) (hs : records.size ≤ UInt32.size)
    (hr : records[i]? = some r) (hi : r.isInternal = true) :
    (∀ j k : Octant, j < k → r.link j < r.link k) ∧ r.link 7 + 1 = i := by
  obtain ⟨below, first, cut, -, -, hlo, hlast, hlink, hc, -⟩ := h.of_internal hs hr hi
  refine ⟨?_, (hlink 7).trans hlast⟩
  intro j k hjk
  have hle := Octant.monotone_slots (fun k => (hc k).lt.le) (show j.val + 1 ≤ k.val from hjk) k.isLt.le
  have hlt := (hc k).lt
  have hj := hlink j
  have hk := hlink k
  omega

theorem child (h : Block t resolve records ids id level position lo (i + 1)) (hl : level < 32)
    (hs : records.size ≤ UInt32.size) (hr : records[i]? = some r) (hi : r.isInternal = true) (k : Octant) :
    ∃ c, records[r.link k]? = some c ∧ c.extent = r.extent / 2 ∧
      c.position.x = r.position.x + .signed k.signs.x (r.extent / 2) ∧
      c.position.y = r.position.y + .signed k.signs.y (r.extent / 2) ∧
      c.position.z = r.position.z + .signed k.signs.z (r.extent / 2) := by
  obtain ⟨below, first, cut, rfl, -, -, -, hlink, hc, rfl, hsize⟩ := h.of_internal hs hr hi
  have hhalf : r.extent / 2 = 2 ^ below := by
    rw [Record.extent_of_size hl hsize, Nat.pow_succ, Nat.mul_div_cancel _ (by decide)]
  have hb := hc k
  rw [← hlink k] at hb
  obtain ⟨c, hc'⟩ : ∃ c, records[r.link k]? = some c :=
    ⟨_, Array.getElem?_eq_getElem (Nat.lt_of_succ_le hb.le_size)⟩
  obtain ⟨hextent, hposition⟩ := hb.own (by omega) hs hc'
  rw [k.offset_eq] at hposition
  refine ⟨c, hc', by rw [hhalf, hextent], ?_⟩
  rw [hhalf, hposition]
  exact ⟨rfl, rfl, rfl⟩

theorem countP_eq (h : Block t resolve records ids id level position 0 records.size) (hl : level < 32)
    (hs : records.size ≤ UInt32.size) (hids : ids.Perm (List.range t.nodeCount))
    (hsize : records.size = t.nodeCount) {q : Record → Bool} {q' : Node → Bool}
    (hq : ∀ r n, r.Describes n → q r = q' n) : records.countP q = t.nodes.countP q' := by
  let f (id : Nat) : Bool := t.nodes[id]?.any q'
  have hrecords : records.toList.map q = ids.map f := by
    apply List.ext_getElem?
    intro i
    rw [List.getElem?_map, List.getElem?_map, Array.getElem?_toList]
    rcases hr : records[i]? with _ | r
    · have hlen : ids.length ≤ i := by
        rw [hids.length_eq, List.length_range, ← hsize]
        exact Array.getElem?_eq_none_iff.mp hr
      rw [List.getElem?_eq_none hlen]
      rfl
    · obtain ⟨id, n, hid, hn, hdes, -⟩ := h.numbered hl hs hr
      simp [hid, f, hn, hq r n hdes]
  have hnodes : t.nodes.toList.map q' = (List.range t.nodeCount).map f := by
    apply List.ext_getElem?
    intro i
    rw [List.getElem?_map, List.getElem?_map, Array.getElem?_toList]
    by_cases hi : i < t.nodes.size
    · simp [f, Octree.nodeCount, hi]
    · simp [Octree.nodeCount, hi]
  calc records.countP q = (records.toList.map q).count true := by simp [List.count, List.countP_map]; rfl
    _ = (t.nodes.toList.map q').count true := by rw [hrecords, hnodes, (hids.map f).count_eq]
    _ = t.nodes.countP q' := by simp [List.count, List.countP_map]; rfl

end Block

namespace RecordCounts

theorem ofRecords_eq (records : Array Record) : ofRecords records =
    ⟨records.countP Record.isInternal, records.countP Record.isLeaf,
      records.countP fun r => r.isEmpty && !r.isLeaf⟩ := by
  have hfold (rs : List Record) (c : RecordCounts) : rs.foldl add c =
      ⟨c.internal + rs.countP Record.isInternal, c.leaf + rs.countP Record.isLeaf,
        c.empty + rs.countP fun r => r.isEmpty && !r.isLeaf⟩ := by
    induction rs generalizing c with
    | nil => rfl
    | cons r rs ih =>
      rw [List.foldl_cons, ih]
      cases hl : r.isLeaf <;> cases he : r.isEmpty <;>
        simp [add, Record.isInternal, hl, he] <;> omega
  rw [ofRecords, ← Array.foldl_toList, hfold]
  simp

end RecordCounts

theorem Block.linked {t : Octree} {resolve : Resolver} {records : Array Record} {ids : List Nat} {id level : Nat}
    {position : Vec3 Single} (h : Block t resolve records ids id level position 0 records.size) (ha : t.Arena)
    (hl : level < 32) (hs : records.size ≤ UInt32.size) (hids : ids.Nodup) : Record.Linked records where
  blocks i r hr hi := by
    obtain ⟨id', level', position', lo, -, hb⟩ := h.inner hr
    exact hb.blocks hs hr hi
  increasing i r hr hi := by
    obtain ⟨id', level', position', lo, -, hb⟩ := h.inner hr
    exact hb.increasing hs hr hi
  named j := h.existsUnique_named ha hl hs hids
  child i r hr hi k := by
    obtain ⟨id', level', position', lo, hlevel, hb⟩ := h.inner hr
    exact hb.child (by omega) hs hr hi k
  terminal i r hr hi := by
    obtain ⟨id', level', position', lo, -, hb⟩ := h.inner hr
    obtain ⟨kind, -, -, -, rfl⟩ := hb.of_terminal hr hi
    exact ⟨rfl, rfl⟩

/-- One record for each node, linked as the nodes are, that of the root last and at the anchor. Record `i` is that of node
`ids[i]`. -/
structure Octree.Flattened (t : Octree) (anchor : Vec3 Single) (records : Array Record) : Prop where
  size : records.size = t.nodeCount
  root : ∃ root r, t.nodes[0]? = some root ∧ records[records.size - 1]? = some r ∧ r.Describes root ∧ r.position = anchor
  linked : Record.Linked records
  numbered : ∃ ids : List Nat, ids.Perm (List.range t.nodeCount) ∧ ∀ (i : Nat) (r : Record), records[i]? = some r →
    ∃ id n, ids[i]? = some id ∧ t.nodes[id]? = some n ∧ r.Describes n ∧
      ∀ first, n.kind = .internal first → ∀ k : Octant, ids[r.link k]? = some (first + k.val)
  counts : RecordCounts.ofRecords records = ⟨t.internalCount, t.leafCount, t.emptyCount⟩
  total : (RecordCounts.ofRecords records).total = 1 + 8 * (RecordCounts.ofRecords records).internal

/-- Flattening gives one record for each node, linked as the nodes are. -/
theorem flatten_linked {t : Octree} (h : t.Reachable) (resolve : Resolver) (anchor : Vec3 Single) :
    ∃ records : Array Record, t.flatten resolve anchor = .ok records ∧ t.Flattened anchor records := by
  have ha := h.arena
  have hd := h.depth_lt
  obtain ⟨records, hf, hsize, hb⟩ := exists_block ha resolve anchor
  have hs : records.size ≤ UInt32.size := hsize ▸ ha.size_le_word
  have hpos : 0 < records.size := hb.lt
  have hcounts : RecordCounts.ofRecords records = ⟨t.internalCount, t.leafCount, t.emptyCount⟩ := by
    rw [RecordCounts.ofRecords_eq]
    congr 1
    · exact hb.countP_eq hd hs ha.order_perm hsize fun r n hn => by rw [Record.isInternal, hn.isLeaf, hn.isEmpty]
    · exact hb.countP_eq hd hs ha.order_perm hsize fun r n hn => hn.isLeaf
    · refine hb.countP_eq hd hs ha.order_perm hsize fun r n hn => ?_
      rw [hn.isLeaf, hn.isEmpty]
      rcases n with ⟨level, _ | _ | first⟩ <;> rfl
  have hroot : ∃ root r, t.nodes[0]? = some root ∧ records[records.size - 1]? = some r ∧ r.Describes root ∧
      r.position = anchor := by
    obtain ⟨last, hlast⟩ : ∃ last, records.size = last + 1 := ⟨records.size - 1, by omega⟩
    rw [hlast] at hb ⊢
    obtain ⟨r, hr⟩ : ∃ r, records[last]? = some r := ⟨_, Array.getElem?_eq_getElem (by omega)⟩
    obtain ⟨root, hroot, hdes⟩ := hb.describes hd hr
    exact ⟨root, r, hroot, hr, hdes, (hb.own hd hs hr).2⟩
  have htotal : (RecordCounts.ofRecords records).total = 1 + 8 * (RecordCounts.ofRecords records).internal := by
    rw [hcounts, RecordCounts.total, t.count_kinds]
    exact ha.size_eq
  exact ⟨records, hf, {
    size := hsize
    root := hroot
    linked := hb.linked ha hd hs (ha.nodup_order ha.root.choose_spec)
    numbered := ⟨_, ha.order_perm, fun i r hr => hb.numbered hd hs hr⟩
    counts := hcounts
    total := htotal }⟩

theorem flatten_linked_mixed : ∃ t : Octree, t.Reachable ∧ ∃ records : Array Record,
    t.flatten (Resolver.seeded 7) (.fill .zero) = .ok records ∧ records.size = 25 ∧ Record.Linked records ∧
      RecordCounts.ofRecords records = ⟨3, 2, 20⟩ := by
  have h : (Octree.exec ⟨2, Octree.maxNodes, #[⟨2, .empty⟩]⟩
      [.limit 16, .insert ⟨3, 3, 3⟩, .limit 100, .insertAll [⟨0, 0, 0⟩, ⟨3, 1, 3⟩, ⟨3, 3, 3⟩]]).Reachable :=
    ⟨4, 16, _, _, rfl, rfl⟩
  obtain ⟨records, hf, hflat⟩ := flatten_linked h (Resolver.seeded 7) (.fill .zero)
  refine ⟨_, h, records, hf, ?_, hflat.linked, ?_⟩
  · rw [hflat.size]
    decide
  · rw [hflat.counts]
    decide

end VoxelOctree
