import Mathlib.Data.List.Forall2
import VoxelOctree.Proofs.Convert.Compile
import VoxelOctree.Proofs.Flatten.Block

namespace VoxelOctree

namespace Record

def toTerminal (r : Record) : Terminal :=
  ⟨r.position, r.extent, r.isLeaf⟩

structure Alike (P : Vec3 Single → Vec3 Single → Prop) (r r' : Record) : Prop where
  position : P r.position r'.position
  orientation : r.orientation = r'.orientation
  size : r.size = r'.size
  children : r.children = r'.children
  isLeaf : r.isLeaf = r'.isLeaf
  isEmpty : r.isEmpty = r'.isEmpty

structure Written (resolve : Resolver) (level : Nat) (r : Record) : Prop where
  orientation : r.orientation = identity
  internal : r.isInternal = true → r.material = .internal
  exists_level : ∃ l ≤ level, r.size = .ofNat (2 ^ l) ∧
    (r.isInternal = false → r.material = resolve ⟨r.position, 2 ^ l, r.isLeaf⟩)

structure IsResolved (resolve : Resolver) (r : Record) : Prop where
  size : r.size = .ofNat r.extent
  material : r.material = resolve r.toTerminal

/-- Records at one place in two flattenings of an octree, around one anchor if `isCentered`. -/
structure Twin (isCentered : Prop) (r r' : Record) : Prop extends Alike (fun v v' => isCentered → v = v') r r' where
  internal : r.isInternal = true → r.material = .internal ∧ r'.material = .internal
  eq_upto_material : isCentered → r' = { r with material := r'.material }
  eq_of_internal : isCentered → r.isInternal = true → r' = r

theorem Written.mono {resolve : Resolver} {level level' : Nat} {r : Record} (h : r.Written resolve level)
    (hl : level ≤ level') : r.Written resolve level' := by
  obtain ⟨l, hle, hr⟩ := h.exists_level
  exact ⟨h.orientation, h.internal, l, hle.trans hl, hr⟩

theorem Written.size_eq {resolve : Resolver} {level : Nat} {r : Record} (h : r.Written resolve level)
    (hl : level < 32) : ∃ l ≤ level, r.extent = 2 ^ l ∧ r.size = .ofNat (2 ^ l) := by
  obtain ⟨l, hle, hsize, -⟩ := h.exists_level
  exact ⟨l, hle, extent_of_size (hle.trans_lt hl) hsize, hsize⟩

theorem Written.resolved {resolve : Resolver} {level : Nat} {r : Record} (h : r.Written resolve level)
    (hl : level < 32) (ht : r.isInternal = false) : r.IsResolved resolve := by
  obtain ⟨l, hle, hsize, hmaterial⟩ := h.exists_level
  have hextent := extent_of_size (hle.trans_lt hl) hsize
  constructor
  · rw [hextent, hsize]
  · rw [toTerminal, hextent, hmaterial ht]

theorem Alike.isInternal {P : Vec3 Single → Vec3 Single → Prop} {r r' : Record} (h : r.Alike P r') :
    r.isInternal = r'.isInternal := by
  rw [Record.isInternal, Record.isInternal, h.isLeaf, h.isEmpty]

theorem Alike.eq_of_position {r r' : Record} (h : r.Alike Eq r') : r' = { r with material := r'.material } := by
  obtain ⟨position, orientation, size, material, children, isLeaf, isEmpty⟩ := r
  obtain ⟨rfl, rfl, rfl, rfl, rfl, rfl⟩ := h
  rfl

end Record

namespace Cell

variable (resolve resolve' : Resolver)

theorem written_records (c : Cell) (base level : Nat) (position : Vec3 Single) :
    ∀ r ∈ c.records resolve base level position, r.Written resolve level := by
  induction c generalizing base level position with
  | empty => exact List.forall_mem_singleton.mpr ⟨rfl, nofun, level, Nat.le_refl _, rfl, fun _ => rfl⟩
  | leaf => exact List.forall_mem_singleton.mpr ⟨rfl, nofun, level, Nat.le_refl _, rfl, fun _ => rfl⟩
  | split children ih =>
    refine List.forall_mem_append.mpr ⟨?_, ?_⟩
    · intro r hr
      obtain ⟨k, -, hk⟩ := List.mem_flatMap.mp hr
      exact (ih k _ _ _ r hk).mono (Nat.sub_le level 1)
    · exact List.forall_mem_singleton.mpr ⟨rfl, fun _ => rfl, level, Nat.le_refl _, rfl, nofun⟩

variable {resolve resolve'} {P : Vec3 Single → Vec3 Single → Prop}

theorem alike_records (c : Cell) (base : Nat) {level : Nat} {position position' : Vec3 Single}
    (hP : ∀ l ≤ level, ∀ (k : Octant) (v v' : Vec3 Single), P v v' →
      P (v.add (k.offset (2 ^ l))) (v'.add (k.offset (2 ^ l)))) (h : P position position') :
    List.Forall₂ (Record.Alike P) (c.records resolve base level position)
      (c.records resolve' base level position') := by
  induction c generalizing base level position position' with
  | empty => exact .cons ⟨h, rfl, rfl, rfl, rfl, rfl⟩ .nil
  | leaf => exact .cons ⟨h, rfl, rfl, rfl, rfl, rfl⟩ .nil
  | split children ih =>
    have hslots : List.Forall₂ Eq Octant.all Octant.all := List.forall₂_refl _
    refine List.rel_append (List.rel_flatMap hslots ?_) (.cons ⟨h, rfl, rfl, rfl, rfl, rfl⟩ .nil)
    rintro k - rfl
    exact ih k _ (fun l hl => hP l (hl.trans (Nat.sub_le level 1))) (hP _ (Nat.sub_le level 1) k _ _ h)

end Cell

theorem Octree.Arena.written {t : Octree} (h : t.Arena) {isParallel : Bool} {resolve : Resolver}
    {anchor : Vec3 Single} {records : Array Record} (hf : t.flattenWith isParallel resolve anchor = .ok records) :
    ∀ r ∈ records, r.Written resolve t.depth := by
  rw [h.flattenWith_eq] at hf
  obtain rfl := Except.ok.inj hf
  intro r hr
  exact t.cell.written_records resolve 0 t.depth anchor r (List.mem_toArray.mp hr)

/-- Two flattenings of one octree, each in its own manner, give records in the same order with the same links, sizes,
orientations and flags. An internal record has the material of all internal records; around one anchor it is the same in
both, and only the materials of terminal records differ. Each of these is the resolver's answer to what the record shows. -/
theorem flatten_structure {t : Octree} (h : t.Reachable) (isParallel isParallel' : Bool) (resolve resolve' : Resolver)
    (anchor anchor' : Vec3 Single) :
    ∃ records records' : Array Record, t.flattenWith isParallel resolve anchor = .ok records ∧
      t.flattenWith isParallel' resolve' anchor' = .ok records' ∧
      records.size = t.nodeCount ∧ records'.size = t.nodeCount ∧
      (∀ (i : Nat) (r r' : Record), records[i]? = some r → records'[i]? = some r' → r.Twin (anchor = anchor') r') ∧
      (∀ r ∈ records, r.isInternal = false → r.IsResolved resolve) ∧
      ∀ r ∈ records', r.isInternal = false → r.IsResolved resolve' := by
  have ha := h.arena
  have hd := h.depth_lt
  have hf := ha.flattenWith_eq isParallel resolve anchor
  have hf' := ha.flattenWith_eq isParallel' resolve' anchor'
  have hwritten := ha.written hf
  have hwritten' := ha.written hf'
  refine ⟨_, _, hf, hf', ha.length_records resolve anchor, ha.length_records resolve' anchor', ?_,
    fun r hr => (hwritten r hr).resolved hd, fun r hr => (hwritten' r hr).resolved hd⟩
  intro i r r' hr hr'
  have halike : r.Alike (fun v v' => anchor = anchor' → v = v') r' := by
    have hall : List.Forall₂ (Record.Alike fun v v' => anchor = anchor' → v = v')
        (t.cell.records resolve 0 t.depth anchor) (t.cell.records resolve' 0 t.depth anchor') :=
      t.cell.alike_records 0 (fun l _ k v v' hv he => by rw [hv he]) fun he => he
    rw [List.getElem?_toArray, List.getElem?_eq_some_iff] at hr hr'
    obtain ⟨hi, rfl⟩ := hr
    obtain ⟨hi', rfl⟩ := hr'
    exact hall.get hi hi'
  have hinternal := (hwritten r (Array.mem_of_getElem? hr)).internal
  have hinternal' := (hwritten' r' (Array.mem_of_getElem? hr')).internal
  rw [← halike.isInternal] at hinternal'
  have heq (he : anchor = anchor') : r' = { r with material := r'.material } :=
    Record.Alike.eq_of_position { halike with position := halike.position he }
  exact {
    toAlike := halike
    internal := fun hi => ⟨hinternal hi, hinternal' hi⟩
    eq_upto_material := heq
    eq_of_internal := fun he hi => by rw [heq he, hinternal' hi, ← hinternal hi] }

theorem flatten_structure_nan : ∃ t : Octree, t.Reachable ∧ ∃ records records' : Array Record,
    t.flattenWith false (.uniform .internal) ⟨.nan, ⟨0x7f800000⟩, .nan⟩ = .ok records ∧
      t.flattenWith true (.seeded 7) (.fill .zero) = .ok records' ∧ records.size = 25 ∧ records'.size = 25 ∧
      ∀ (i : Nat) (r r' : Record), records[i]? = some r → records'[i]? = some r' →
        r.children = r'.children ∧ r.isLeaf = r'.isLeaf ∧
          (r'.isInternal = false → r'.material = Resolver.seeded 7 r'.toTerminal) := by
  have h : (Octree.exec ⟨2, Octree.maxNodes, #[⟨2, .empty⟩]⟩
      [.limit 16, .insert ⟨3, 3, 3⟩, .limit 100, .insertAll [⟨0, 0, 0⟩, ⟨3, 1, 3⟩, ⟨3, 3, 3⟩]]).Reachable :=
    ⟨4, 16, _, _, rfl, rfl⟩
  obtain ⟨records, records', hf, hf', hsize, hsize', hall, -, hresolved⟩ := flatten_structure h false true
    (.uniform .internal) (.seeded 7) ⟨.nan, ⟨0x7f800000⟩, .nan⟩ (.fill .zero)
  refine ⟨_, h, records, records', hf, hf', hsize.trans (by decide), hsize'.trans (by decide), ?_⟩
  intro i r r' hr hr'
  have htwin := hall i r r' hr hr'
  exact ⟨htwin.children, htwin.isLeaf, fun ht => (hresolved r' (Array.mem_of_getElem? hr') ht).material⟩

end VoxelOctree
