import VoxelOctree.Proofs.Flatten.Geometry
import VoxelOctree.Proofs.Flatten.Shape

/-!
A key spells out the seed, the center, the size and the kind, each at a place of its own, so equal keys come from equal
terminals; and no two terminal records show the same terminal, because their cubes have inner points and share none.
-/

namespace VoxelOctree

namespace ChaCha

variable {key key' : List UInt8}

theorem start_word (key : List UInt8) : ∀ i : Fin 8, (start key)[4 + i.val] = keyWord key i.val
  | 0 | 1 | 2 | 3 | 4 | 5 | 6 | 7 => rfl

theorem toNat_keyWord (hl : key.length = 32) (i : Fin 8) :
    (keyWord key i.val).toNat = ofLittleEndian ((key.drop (4 * i.val)).take 4) := by
  have hlength : ((key.drop (4 * i.val)).take 4).length = 4 := by
    rw [List.length_take, List.length_drop]
    omega
  have hlt := ofLittleEndian_lt ((key.drop (4 * i.val)).take 4)
  rw [hlength] at hlt
  exact UInt32.toNat_ofNat_of_lt' hlt

theorem chunk_of_start (hl : key.length = 32) (hl' : key'.length = 32) (h : start key = start key') (i : Fin 8) :
    (key.drop (4 * i.val)).take 4 = (key'.drop (4 * i.val)).take 4 := by
  apply ofLittleEndian_inj
  · rw [List.length_take, List.length_drop, List.length_take, List.length_drop, hl, hl']
  · rw [← toNat_keyWord hl, ← toNat_keyWord hl', ← start_word, ← start_word, h]

theorem start_inj (hl : key.length = 32) (hl' : key'.length = 32) (h : start key = start key') : key = key' := by
  apply List.ext_getElem?
  intro j
  by_cases hj : j < 32
  · have hchunk := chunk_of_start hl hl' h ⟨j / 4, by omega⟩
    have hbyte := congrArg (fun chunk : List UInt8 => chunk[j % 4]?) hchunk
    simpa only [List.getElem?_take, Nat.mod_lt j (show 0 < 4 by decide), ↓reduceIte, List.getElem?_drop,
      Nat.div_add_mod] using hbyte
  · rw [List.getElem?_eq_none (by omega), List.getElem?_eq_none (by omega)]

end ChaCha

namespace Resolver

variable {seed seed' : UInt64} {u u' : Terminal}

theorem length_key (seed : UInt64) (u : Terminal) : (key seed u).length = 32 := by
  simp [key, Vec3.toList]

theorem seed_of_key (h : key seed u = key seed' u') : seed = seed' := by
  simp only [key, List.append_assoc] at h
  obtain ⟨hseed, -⟩ := List.append_inj h (by simp)
  exact UInt64.toNat_inj.mp (littleEndian_inj seed.toNat_lt seed'.toNat_lt hseed)

theorem single_of_littleEndian {a b : Single} (h : littleEndian a.bits.toNat 4 = littleEndian b.bits.toNat 4) :
    a = b := by
  have hbits := UInt32.toNat_inj.mp (littleEndian_inj a.bits.toNat_lt b.bits.toNat_lt h)
  exact congrArg Single.mk hbits

theorem terminal_of_key (hu : u.size < UInt32.size) (hu' : u'.size < UInt32.size) (h : key seed u = key seed' u') :
    u = u' := by
  obtain ⟨⟨x, y, z⟩, size, isLeaf⟩ := u
  obtain ⟨⟨x', y', z'⟩, size', isLeaf'⟩ := u'
  simp only [key, Vec3.toList, List.flatMap_cons, List.flatMap_nil, List.append_nil, List.append_assoc] at h
  obtain ⟨-, h⟩ := List.append_inj h (by simp)
  obtain ⟨hx, h⟩ := List.append_inj h (by simp)
  obtain ⟨hy, h⟩ := List.append_inj h (by simp)
  obtain ⟨hz, h⟩ := List.append_inj h (by simp)
  obtain ⟨hsize, h⟩ := List.append_inj h (by simp)
  obtain rfl := single_of_littleEndian hx
  obtain rfl := single_of_littleEndian hy
  obtain rfl := single_of_littleEndian hz
  obtain rfl := littleEndian_inj hu hu' hsize
  obtain rfl : isLeaf = isLeaf' := by
    have hflag := (List.cons.inj h).1
    cases isLeaf <;> cases isLeaf' <;> simp_all
  rfl

theorem key_injective : Function.Injective fun x : UInt64 × Vec3 Single × UInt32 × Bool =>
    key x.1 ⟨x.2.1, x.2.2.1.toNat, x.2.2.2⟩ := by
  rintro ⟨seed, position, size, isLeaf⟩ ⟨seed', position', size', isLeaf'⟩ h
  have hterminal := terminal_of_key size.toNat_lt size'.toNat_lt h
  obtain rfl : seed = seed' := seed_of_key h
  obtain ⟨rfl, hsize, rfl⟩ := Terminal.mk.inj hterminal
  obtain rfl := UInt32.toNat_inj.mp hsize
  rfl

/-- The materials under a seed are drawn from generators whose keys have 32 bytes and tell the seed, the center, the size
and the kind apart. Different keys make generators that start apart. -/
structure Keyed (resolve : UInt64 → Resolver) (key : UInt64 → Terminal → List UInt8) : Prop where
  drawn : ∀ seed u, resolve seed u = draw (ChaCha.block (key seed u))
  length_eq : ∀ seed u, (key seed u).length = 32
  injective : Function.Injective fun x : UInt64 × Vec3 Single × UInt32 × Bool =>
    key x.1 ⟨x.2.1, x.2.2.1.toNat, x.2.2.2⟩
  seeds_ne : ∀ seed seed' u u', seed ≠ seed' → key seed u ≠ key seed' u'
  start_ne : ∀ seed seed' u u', key seed u ≠ key seed' u' → ChaCha.start (key seed u) ≠ ChaCha.start (key seed' u')

theorem keyed_seeded : Keyed seeded key where
  drawn _ _ := rfl
  length_eq := length_key
  injective := key_injective
  seeds_ne _ _ _ _ hne h := hne (seed_of_key h)
  start_ne _ _ _ _ hne h := hne (ChaCha.start_inj (length_key _ _) (length_key _ _) h)

end Resolver

namespace Record

variable {resolve : Resolver} {level : Nat} {r r' : Record}

theorem Written.nonempty_interior_cube (h : r.Written resolve level) (hl : level < 32) :
    (interior r.cube).Nonempty := by
  obtain ⟨l, hle, -, hsize⟩ := h.size_eq hl
  have hvalue : r.size.value = (2 ^ l : Nat) := by
    rw [hsize, (Single.IsInt.ofNat_two_pow (by omega)).value_eq]
    rfl
  have hpos : 0 < r.size.value := by
    rw [hvalue]
    positivity
  rw [cube, Vec3.interior_cube]
  refine ⟨⟨r.position.x.value, r.position.y.value, r.position.z.value⟩, ?_⟩
  simp only [Vec3.map, Set.mem_prod, Set.mem_Ioo]
  refine ⟨⟨?_, ?_⟩, ⟨?_, ?_⟩, ?_, ?_⟩ <;> linarith

theorem Written.extent_lt (h : r.Written resolve level) (hl : level < 32) : r.extent < UInt32.size := by
  obtain ⟨l, hle, hextent, -⟩ := h.size_eq hl
  rw [hextent]
  exact Nat.pow_lt_pow_right (by decide) (hle.trans_lt hl)

theorem Written.cube_eq (h : r.Written resolve level) (h' : r'.Written resolve level) (hl : level < 32)
    (he : r.toTerminal = r'.toTerminal) : r.cube = r'.cube := by
  obtain ⟨hposition, hextent, -⟩ := Terminal.mk.inj he
  obtain ⟨l, -, hlevel, hsize⟩ := h.size_eq hl
  obtain ⟨l', -, hlevel', hsize'⟩ := h'.size_eq hl
  rw [cube, cube, hposition, hsize, hsize', ← hlevel, ← hlevel', hextent]

end Record

theorem Octree.Reachable.toTerminal_ne {t : Octree} (h : t.Reachable) {resolve : Resolver} {anchor : Vec3 Single}
    {a : Vec3 Int} (hcenter : Centered anchor a t.depth) {records : Array Record}
    (hf : t.flatten resolve anchor = .ok records) {i j : Nat} {r r' : Record} (hne : i ≠ j)
    (hr : records[i]? = some r) (hr' : records[j]? = some r') (ht : r.isInternal = false)
    (ht' : r'.isInternal = false) : r.toTerminal ≠ r'.toTerminal := by
  intro he
  have hd := h.depth_lt
  have hwritten := h.arena.written (show t.flattenWith false resolve anchor = .ok records from hf)
  obtain ⟨records', hf', hsize, hb⟩ := exists_block h.arena resolve anchor
  obtain rfl : records' = records := Except.ok.inj (hf'.symm.trans hf)
  have hs : records'.size ≤ UInt32.size := hsize ▸ h.arena.size_le_word
  have hi := (Array.getElem?_eq_some_iff.mp hr).1
  have hj := (Array.getElem?_eq_some_iff.mp hr').1
  have hw := hwritten r (Array.mem_of_getElem? hr)
  have hw' := hwritten r' (Array.mem_of_getElem? hr')
  have hdisjoint := hb.disjoint_cubes hs hcenter ⟨Nat.zero_le i, hi⟩ ⟨Nat.zero_le j, hj⟩ hne hr hr' ht ht'
  rw [← hw.cube_eq hw' hd he, disjoint_self] at hdisjoint
  exact (hw.nonempty_interior_cube hd).ne_empty hdisjoint

/-- Every terminal has a generator of its own. Two terminals never share a key under different seeds, and around an
integer anchor with room for 24 bits no two terminal records of an octree share one under the same seed. What a record
shows is what its material was asked for. -/
theorem key_distinct :
    Resolver.Keyed Resolver.seeded Resolver.key ∧
      ∀ t : Octree, t.Reachable → ∀ (isParallel : Bool) (resolve : Resolver) (anchor : Vec3 Single) (a : Vec3 Int),
        anchor.IsInt a → (∀ c ∈ a.toList, c.natAbs + t.rootSize ≤ 16777216) →
          ∃ records : Array Record, t.flattenWith isParallel resolve anchor = .ok records ∧
            (∀ r ∈ records, r.isInternal = false → r.extent < UInt32.size ∧ r.IsResolved resolve) ∧
            ∀ (i j : Nat) (r r' : Record), i ≠ j → records[i]? = some r → records[j]? = some r' →
              r.isInternal = false → r'.isInternal = false → ∀ seed : UInt64,
                Resolver.key seed r.toTerminal ≠ Resolver.key seed r'.toTerminal := by
  refine ⟨Resolver.keyed_seeded, ?_⟩
  intro t h isParallel resolve anchor a hint hroom
  have hd := h.depth_lt
  have hcenter : Centered anchor a t.depth := ⟨hint, hroom⟩
  have hf := h.arena.flattenWith_eq isParallel resolve anchor
  have hf' := Octree.flatten_eq h.arena resolve anchor
  have hwritten := h.arena.written hf
  refine ⟨_, hf, fun r hr ht => ⟨(hwritten r hr).extent_lt hd, (hwritten r hr).resolved hd ht⟩, ?_⟩
  intro i j r r' hne hr hr' ht ht' seed hkey
  have hlt := (hwritten r (Array.mem_of_getElem? hr)).extent_lt hd
  have hlt' := (hwritten r' (Array.mem_of_getElem? hr')).extent_lt hd
  exact h.toTerminal_ne hcenter hf' hne hr hr' ht ht' (Resolver.terminal_of_key hlt hlt' hkey)

theorem key_distinct_far : ∃ t : Octree, t.Reachable ∧ ∃ (records : Array Record) (r r' : Record),
    t.flattenWith true (.seeded 7) ⟨⟨0x4b7ffffc⟩, ⟨0x80000000⟩, ⟨0xcb7ffffc⟩⟩ = .ok records ∧
      records[0]? = some r ∧ records[1]? = some r' ∧ r.isLeaf = true ∧ r'.isEmpty = true ∧
      r.material = Resolver.seeded 7 r.toTerminal ∧
      Resolver.key 7 r.toTerminal ≠ Resolver.key 7 r'.toTerminal ∧
      ChaCha.start (Resolver.key 7 r.toTerminal) ≠ ChaCha.start (Resolver.key 8 r.toTerminal) := by
  have h : (Octree.exec ⟨2, Octree.maxNodes, #[⟨2, .empty⟩]⟩ [.insertAll [⟨0, 0, 0⟩, ⟨3, 1, 3⟩, ⟨3, 3, 3⟩]]).Reachable :=
    ⟨4, 16, _, _, rfl, rfl⟩
  have ha : (⟨⟨0x4b7ffffc⟩, ⟨0x80000000⟩, ⟨0xcb7ffffc⟩⟩ : Vec3 Single).IsInt ⟨16777212, 0, -16777212⟩ :=
    ⟨⟨by decide, by decide⟩, ⟨by decide, by decide⟩, ⟨by decide, by decide⟩⟩
  obtain ⟨hkeyed, hown⟩ := key_distinct
  obtain ⟨records, hf, hresolved, hne⟩ := hown _ h true (.seeded 7) _ _ ha (by decide)
  obtain rfl := Except.ok.inj ((h.arena.flattenWith_eq _ _ _).symm.trans hf)
  refine ⟨_, h, _, _, _, hf, rfl, rfl, rfl, rfl, ?_, hne 0 1 _ _ (by decide) rfl rfl rfl rfl 7,
    hkeyed.start_ne 7 8 _ _ (hkeyed.seeds_ne 7 8 _ _ (by decide))⟩
  exact (hresolved _ (Array.mem_of_getElem? (i := 0) rfl) rfl).2.material

end VoxelOctree
