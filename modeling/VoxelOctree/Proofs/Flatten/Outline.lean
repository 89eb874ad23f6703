import VoxelOctree.Proofs.Flatten.Block
import VoxelOctree.Proofs.Flatten.Relocation

/-!
Reading the tree back from the records. An arena and an array of records are both places with numbers that name
further places, and the same reader unfolds either of them. It follows what it finds and checks nothing, so on some
arrays it would never end; on the records of an octree it does, with the tree that the octree itself unfolds to.
-/

namespace VoxelOctree

inductive View where
  | empty (size : Nat)
  | leaf (size : Nat)
  | split (size : Nat) (next : Octant → Nat)

inductive Outline where
  | empty (size : Nat)
  | leaf (size : Nat)
  | split (size : Nat) (children : List Outline)

namespace Outline

/-- Unfolds the tree from a place on. There is none if a place is missing or a way down goes on after `depth`
places. -/
def read (look : Nat → Option View) : (depth i : Nat) → Option Outline
  | 0, _ => none
  | depth + 1, i => do
    match ← look i with
    | .empty size => return .empty size
    | .leaf size => return .leaf size
    | .split size next => return .split size (← Octant.all.mapM fun k => read look depth (next k))

variable {look : Nat → Option View} {depth i size : Nat}

theorem read_empty (hd : 0 < depth) (hi : look i = some (.empty size)) :
    read look depth i = some (.empty size) := by
  obtain ⟨depth, rfl⟩ := Nat.exists_eq_add_one.mpr hd
  rw [read, hi]
  rfl

theorem read_leaf (hd : 0 < depth) (hi : look i = some (.leaf size)) : read look depth i = some (.leaf size) := by
  obtain ⟨depth, rfl⟩ := Nat.exists_eq_add_one.mpr hd
  rw [read, hi]
  rfl

theorem read_split (hd : 0 < depth) {next : Octant → Nat} {children : Octant → Outline}
    (hi : look i = some (.split size next)) (hc : ∀ k, read look (depth - 1) (next k) = some (children k)) :
    read look depth i = some (.split size (Octant.all.map children)) := by
  obtain ⟨depth, rfl⟩ := Nat.exists_eq_add_one.mpr hd
  rw [Nat.add_sub_cancel] at hc
  rw [read, hi]
  simp [hc, Octant.all]

end Outline

def Cell.outline : Cell → (level : Nat) → Outline
  | empty, level => .empty (2 ^ level)
  | leaf, level => .leaf (2 ^ level)
  | split children, level => .split (2 ^ level) (Octant.all.map fun k => (children k).outline (level - 1))

def Node.view (n : Node) : View :=
  match n.kind with
  | .empty => .empty n.size
  | .leaf => .leaf n.size
  | .internal first => .split n.size fun k => first + k.val

namespace Octree

def outline (t : Octree) : Outline :=
  t.cell.outline t.depth

def unfoldAt (t : Octree) (depth id : Nat) : Option Outline :=
  Outline.read (fun id => t.nodes[id]?.map Node.view) depth id

theorem Arena.unfoldAt_eq {t : Octree} (h : Arena t) {id level : Nat} {kind : Kind}
    (hn : t.nodes[id]? = some ⟨level, kind⟩) {depth : Nat} (hd : level < depth) :
    t.unfoldAt depth id = some ((t.cellAt id level).outline level) := by
  revert depth
  refine h.induction_on (motive := fun id level => ∀ {depth : Nat}, level < depth →
    t.unfoldAt depth id = some ((t.cellAt id level).outline level)) ?_ ?_ ?_ hn
  · intro id level hn depth hd
    rw [cellAt_empty hn]
    apply Outline.read_empty (Nat.zero_lt_of_lt hd)
    rw [hn]
    rfl
  · intro id hn depth hd
    rw [cellAt_leaf hn]
    apply Outline.read_leaf hd
    rw [hn]
    rfl
  · intro id level first hn ih depth hd
    rw [cellAt_internal hn]
    refine Outline.read_split (Nat.zero_lt_of_lt hd) ?_ fun k => ih k (Nat.lt_sub_of_add_lt hd)
    rw [hn]
    rfl

end Octree

namespace Record

def view (r : Record) : View :=
  if r.isLeaf then .leaf r.extent
  else if r.isEmpty then .empty r.extent
  else .split r.extent r.link

def unfoldAt (records : Array Record) (depth i : Nat) : Option Outline :=
  Outline.read (fun i => records[i]?.map view) depth i

def unflatten (records : Array Record) (depth : Nat) : Option Outline :=
  unfoldAt records depth (records.size - 1)

theorem view_terminal (position : Vec3 Single) {level : Nat} (hl : level < 32) (m : Material) (isLeaf : Bool) :
    (terminal position (2 ^ level) m isLeaf).view = if isLeaf then .leaf (2 ^ level) else .empty (2 ^ level) := by
  have hextent : (terminal position (2 ^ level) m isLeaf).extent = 2 ^ level := extent_of_size hl rfl
  rw [view, hextent]
  cases isLeaf <;> rfl

theorem view_internal (position : Vec3 Single) {level : Nat} (hl : level < 32) (links : Vector UInt32 8) :
    (internal position (2 ^ level) links).view =
      .split (2 ^ level) (internal position (2 ^ level) links).link := by
  have hextent : (internal position (2 ^ level) links).extent = 2 ^ level := extent_of_size hl rfl
  rw [view, hextent]
  rfl

end Record

theorem Block.unfoldAt_eq {t : Octree} {resolve : Resolver} {records : Array Record} {ids : List Nat}
    {id level lo hi : Nat} {position : Vec3 Single} (h : Block t resolve records ids id level position lo hi)
    (hl : level < 32) (hs : records.size ≤ UInt32.size) {depth : Nat} (hd : level < depth) :
    Record.unfoldAt records depth (hi - 1) = some ((t.cellAt id level).outline level) := by
  induction h generalizing depth with
  | @terminal id level lo kind position hn hk hid hr =>
    have hview := congrArg (Option.map Record.view) hr
    rw [Option.map_some, Record.view_terminal position hl] at hview
    cases kind with
    | empty =>
      rw [Octree.cellAt_empty hn]
      exact Outline.read_empty (Nat.zero_lt_of_lt hd) hview
    | leaf =>
      rw [Octree.cellAt_leaf hn]
      exact Outline.read_leaf (Nat.zero_lt_of_lt hd) hview
    | internal first => exact absurd rfl (hk first)
  | @internal id level first lo last position cut hn hlo hlast hc hid hr ih =>
    have hview := congrArg (Option.map Record.view) hr
    rw [Option.map_some, Record.view_internal position hl] at hview
    rw [Octree.cellAt_internal hn]
    apply Outline.read_split (Nat.zero_lt_of_lt hd) hview
    intro k
    rw [Record.link_internal position _ (Nat.zero_lt_of_lt (hc k).lt) ((hc k).le_size.trans hs)]
    exact ih k (Nat.lt_of_succ_lt hl) (Nat.lt_sub_of_add_lt hd)

theorem Octree.Reachable.unflatten {t : Octree} (h : t.Reachable) (resolve : Resolver) (anchor : Vec3 Single) :
    ∃ records : Array Record, t.flatten resolve anchor = .ok records ∧
      t.flattenByOctant resolve anchor = .ok records ∧
      ∀ depth, t.depth < depth → Record.unflatten records depth = some t.outline := by
  have ha := h.arena
  obtain ⟨records, hf, hsize, hb⟩ := exists_block ha resolve anchor
  have hs : records.size ≤ UInt32.size := hsize ▸ ha.size_le_word
  refine ⟨records, hf, ?_, fun depth hd => hb.unfoldAt_eq h.depth_lt hs hd⟩
  rw [flattenByOctant_eq ha, ← flatten_eq ha, hf]

/-- Reading the records of an octree ends with the tree of the octree, however they were made, after no more levels
than the octree has. So octrees with the same records have the same tree. -/
theorem unflatten_flatten {t : Octree} (h : t.Reachable) :
    (∀ depth, t.depth < depth → t.unfoldAt depth 0 = some t.outline) ∧
      (∀ (resolve : Resolver) (anchor : Vec3 Single), ∃ records : Array Record,
        t.flatten resolve anchor = .ok records ∧ t.flattenByOctant resolve anchor = .ok records ∧
          ∀ depth, t.depth < depth → Record.unflatten records depth = some t.outline) ∧
      ∀ t' : Octree, t'.Reachable → ∀ (resolve : Resolver) (anchor : Vec3 Single),
        t.flatten resolve anchor = t'.flatten resolve anchor → t.outline = t'.outline := by
  refine ⟨?_, h.unflatten, ?_⟩
  · intro depth hd
    obtain ⟨kind, hr⟩ := h.arena.root
    exact h.arena.unfoldAt_eq hr hd
  · intro t' h' resolve anchor he
    obtain ⟨records, hf, -, hr⟩ := h.unflatten resolve anchor
    obtain ⟨records', hf', -, hr'⟩ := h'.unflatten resolve anchor
    obtain rfl : records = records' := Except.ok.inj (hf.symm.trans (he.trans hf'))
    have hread := hr (t.depth + t'.depth + 1) (by omega)
    have hread' := hr' (t.depth + t'.depth + 1) (by omega)
    exact Option.some.inj (hread.symm.trans hread')

theorem unflatten_flatten_limited : ∃ t t' : Octree, t.Reachable ∧ t'.Reachable ∧ t ≠ t' ∧ t.outline = t'.outline ∧
    ∃ records : Array Record, t.flattenByOctant (Resolver.seeded 7) (.fill .one) = .ok records ∧
      Record.unflatten records 3 = some t.outline := by
  have h : (Octree.exec ⟨2, Octree.maxNodes, #[⟨2, .empty⟩]⟩
      [.insertAll [⟨0, 0, 0⟩, ⟨3, 1, 3⟩, ⟨3, 3, 3⟩]]).Reachable := ⟨4, 16, _, _, rfl, rfl⟩
  have h' : (Octree.exec ⟨2, Octree.maxNodes, #[⟨2, .empty⟩]⟩
      [.limit 25, .insertAll [⟨0, 0, 0⟩, ⟨3, 1, 3⟩, ⟨3, 3, 3⟩]]).Reachable := ⟨4, 16, _, _, rfl, rfl⟩
  obtain ⟨-, hread, hsame⟩ := unflatten_flatten h
  obtain ⟨records, -, hf, hr⟩ := hread (Resolver.seeded 7) (.fill .one)
  refine ⟨_, _, h, h', by decide, hsame _ h' (Resolver.seeded 7) (.fill .one) ?_, records, hf, hr 3 (by decide)⟩
  rw [Octree.flatten_eq h.arena, Octree.flatten_eq h'.arena]
  rfl

end VoxelOctree
