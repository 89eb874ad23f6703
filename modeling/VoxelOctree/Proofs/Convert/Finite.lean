import VoxelOctree.Proofs.Convert.Outcome
import VoxelOctree.Proofs.Flatten.Geometry
import VoxelOctree.Proofs.Flatten.Shape
import VoxelOctree.Proofs.Octree.Capacity
import VoxelOctree.Proofs.Record.RoundTrip
import VoxelOctree.Proofs.Single.Finite

namespace VoxelOctree

open BinaryFormat

theorem Side.isFinite_add (v : Single) {level : Nat} (hl : level < 32) (s : Side) :
    (v + s.apply (.ofNat (2 ^ level))).isFinite = v.isFinite := by
  have hsize : (Single.ofNat (2 ^ level)).IsInt (2 ^ level : Nat) := .ofNat_two_pow (by omega)
  have hsmall : 2 ^ level * 2 ^ binary32.scale < 2 ^ 252 := by
    rw [← Nat.pow_add]
    exact Nat.pow_lt_pow_right (by decide) (Nat.add_lt_add_right hl 149 |>.trans (by decide))
  cases s with
  | above =>
    apply Single.isFinite_add hsize.finite
    rwa [hsize.magnitude_eq]
  | below =>
    apply Single.isFinite_add hsize.neg.finite
    rwa [hsize.neg.magnitude_eq, Int.natAbs_neg]

theorem Octant.isFinite_add_offset (v : Vec3 Single) {level : Nat} (hl : level < 32) (k : Octant) :
    (v.add (k.offset (2 ^ level))).map Single.isFinite = v.map Single.isFinite := by
  simp only [Vec3.add, Vec3.zipWith, Octant.offset, Vec3.map, Side.isFinite_add _ hl]

theorem Vec3.all_isFinite_congr {v w : Vec3 Single} (h : v.map Single.isFinite = w.map Single.isFinite) :
    (∀ a ∈ v.toList, a.isFinite = true) ↔ ∀ a ∈ w.toList, a.isFinite = true := by
  simp only [Vec3.map, Vec3.mk.injEq] at h
  simp only [Vec3.toList, List.forall_mem_cons, h]

theorem Cell.isFinite_positions {resolve : Resolver} (c : Cell) (base : Nat) {level : Nat} (hl : level < 32)
    (position : Vec3 Single) : ∀ r ∈ c.records resolve base level position,
      r.position.map Single.isFinite = position.map Single.isFinite := by
  have hall : List.Forall₂ (Record.Alike fun v _ => v.map Single.isFinite = position.map Single.isFinite)
      (c.records resolve base level position) (c.records resolve base level position) :=
    c.alike_records base (fun l hle k v _ hv => (k.isFinite_add_offset v (hle.trans_lt hl)).trans hv) rfl
  intro r hr
  exact (List.forall₂_same.mp hall r hr).position

namespace Resolver

structure IsFraction (a : Single) : Prop where
  finite : a.isFinite = true
  range : a.value ∈ Set.Ico (0 : ℝ) 1
  multiple : ∃ n : Nat, a.value = n / 2 ^ 24

theorem units_fractionOf (w : UInt32) :
    (fractionOf w).isFinite = true ∧ (fractionOf w).units = (w.toNat / 0x100 : Nat) * 2 ^ 125 := by
  have hw := w.toNat_lt
  have hplace : w.toNat / 0x100 * 2 ^ binary32.scale = w.toNat / 0x100 * 2 ^ 125 * 0x1000000 := by
    rw [Nat.mul_assoc]
    rfl
  have hbelow : w.toNat / 0x100 * 2 ^ 125 < binary32.units binary32.infinity := by
    rw [Single.units_infinity]
    omega
  obtain ⟨hlt, hunits⟩ := units_nearest fractionBits_pos (show 0 < 0x1000000 by decide)
    (show w.toNat / 0x100 ≤ 16777216 by omega) hbelow
  rw [← hplace] at hlt hunits
  rw [fractionOf, Single.ofRatio]
  refine ⟨Single.isFinite_ofOrdinal _ hlt, ?_⟩
  rw [Single.units_ofOrdinal _ (hlt.trans infinity_lt), hunits]
  push_cast
  rfl

theorem isFraction_fractionOf (w : UInt32) : IsFraction (fractionOf w) := by
  have hw := w.toNat_lt
  obtain ⟨hfinite, hunits⟩ := units_fractionOf w
  have hscale : (2 : ℝ) ^ binary32.scale = 2 ^ 125 * 2 ^ 24 := by
    rw [← pow_add]
    rfl
  have hvalue : (fractionOf w).value = (w.toNat / 0x100 : Nat) / 2 ^ 24 := by
    rw [Single.value, hunits, hscale]
    generalize w.toNat / 0x100 = n
    push_cast
    field_simp
    norm_num
  have hlt : ((w.toNat / 0x100 : Nat) : ℝ) < 2 ^ 24 := by
    exact_mod_cast (show w.toNat / 0x100 < 2 ^ 24 by omega)
  refine ⟨hfinite, ?_, _, hvalue⟩
  rw [hvalue]
  exact ⟨by positivity, (div_lt_one (by positivity)).mpr hlt⟩

theorem isFraction_seeded (seed : UInt64) (u : Terminal) :
    (∀ a ∈ (seeded seed u).emittance.toList ++ (seeded seed u).reflectance.toList, IsFraction a) ∧
      (seeded seed u).roughness = .zero ∧ (seeded seed u).opacity = .zero := by
  refine ⟨?_, rfl, rfl⟩
  simp only [seeded, draw, Material.ofLight, Vec3.toList, List.cons_append, List.nil_append, List.forall_mem_cons,
    isFraction_fractionOf, true_and]
  exact List.forall_mem_nil _

theorem isFinite_seeded (seed : UInt64) (u : Terminal) : ∀ a ∈ (seeded seed u).numbers, a.isFinite = true := by
  obtain ⟨hlight, hroughness, hopacity⟩ := isFraction_seeded seed u
  rw [Material.numbers, hroughness, hopacity]
  refine List.forall_mem_append.mpr ⟨fun a ha => (hlight a ha).finite, ?_⟩
  decide

end Resolver

namespace Record

variable {seed : UInt64} {level : Nat} {r : Record}

theorem Written.isFinite_material (h : r.Written (.seeded seed) level) :
    ∀ a ∈ r.material.numbers, a.isFinite = true := by
  cases hi : r.isInternal with
  | true =>
    rw [h.internal hi]
    decide
  | false =>
    obtain ⟨l, -, -, hmaterial⟩ := h.exists_level
    rw [hmaterial hi]
    exact Resolver.isFinite_seeded seed _

theorem Written.isFinite_iff (h : r.Written (.seeded seed) level) (hl : level < 32) :
    (∀ a ∈ r.numbers, a.isFinite = true) ↔ ∀ a ∈ r.position.toList, a.isFinite = true := by
  have horientation : ∀ a ∈ r.orientation.toList.flatMap Vec3.toList, a.isFinite = true := by
    rw [h.orientation]
    decide
  have hsize : r.size.isFinite = true := by
    obtain ⟨l, hle, -, hsize⟩ := h.size_eq hl
    rw [hsize]
    exact (Single.IsInt.ofNat_two_pow (by omega)).finite
  rw [numbers, List.forall_mem_append, List.forall_mem_append, List.forall_mem_cons]
  constructor
  · rintro ⟨⟨hposition, -⟩, -⟩
    exact hposition
  · intro hposition
    exact ⟨⟨hposition, horientation⟩, hsize, h.isFinite_material⟩

end Record

theorem exists_flatten_of_compiled {m : VoxelModel} {config : ConvertConfig} {entropy : UInt64}
    {compiled : CompiledModel} (h : (compileModel m config entropy).outcome = .ok compiled) :
    ∃ t : Octree, t.Arena ∧ t.depth < 32 ∧
      t.flatten (.seeded (config.seed.getD entropy)) config.anchor = .ok compiled.records := by
  obtain ⟨rootSize, start, hm, hc, -, hf⟩ := VoxelModel.compile_eq_ok_iff.mp h
  have hstart := (Octree.Arena.create hc).withLimit config.nodeLimit
  have hdepth : ((start.withLimit config.nodeLimit).insertAll m.points).tree.depth = start.depth :=
    (Octree.run_steps m.points .empty hstart).depth_eq
  refine ⟨_, hstart.insertAll m.points, ?_, hf⟩
  rw [hdepth]
  exact Octree.depth_lt_of_create hc (VoxelModel.rootSize_lt hm)

/-- A model is compiled to finite numbers exactly if the anchor is finite, and the same holds of each record and of each
axis of its center. The light of a terminal record is six multiples of `2 ^ -24` from zero up to, but not including,
one. -/
theorem compileModel_finite {m : VoxelModel} {config : ConvertConfig} {entropy : UInt64} {compiled : CompiledModel}
    (h : (compileModel m config entropy).outcome = .ok compiled) :
    ((∀ r ∈ compiled.records, ∀ a ∈ r.numbers, a.isFinite = true) ↔
        ∀ a ∈ config.anchor.toList, a.isFinite = true) ∧
      (∀ r ∈ compiled.records, r.position.map Single.isFinite = config.anchor.map Single.isFinite ∧
        ((∀ a ∈ r.numbers, a.isFinite = true) ↔ ∀ a ∈ config.anchor.toList, a.isFinite = true)) ∧
      ∀ r ∈ compiled.records, r.isInternal = false →
        (∀ a ∈ r.material.emittance.toList ++ r.material.reflectance.toList, a.isFinite = true ∧
          a.value ∈ Set.Ico (0 : ℝ) 1 ∧ ∃ n : Nat, a.value = n / 2 ^ 24) ∧
        r.material.roughness = .zero ∧ r.material.opacity = .zero := by
  obtain ⟨t, ha, hd, hf⟩ := exists_flatten_of_compiled h
  have hwritten := ha.written (show t.flattenWith false _ _ = .ok compiled.records from hf)
  have hrecords : compiled.records = (t.cell.records _ 0 t.depth config.anchor).toArray :=
    (Except.ok.inj ((Octree.flatten_eq ha _ _).symm.trans hf)).symm
  have hposition (r : Record) (hr : r ∈ compiled.records) :
      r.position.map Single.isFinite = config.anchor.map Single.isFinite := by
    rw [hrecords, List.mem_toArray] at hr
    exact t.cell.isFinite_positions 0 hd config.anchor r hr
  have hrecord (r : Record) (hr : r ∈ compiled.records) :
      (∀ a ∈ r.numbers, a.isFinite = true) ↔ ∀ a ∈ config.anchor.toList, a.isFinite = true :=
    ((hwritten r hr).isFinite_iff hd).trans (Vec3.all_isFinite_congr (hposition r hr))
  have hsome : ∃ r, r ∈ compiled.records := by
    have hpos : 0 < compiled.records.size := by
      rw [hrecords, List.size_toArray, Cell.length_records]
      exact t.cell.count_pos
    exact ⟨_, Array.getElem_mem hpos⟩
  refine ⟨⟨fun hall => ?_, fun hanchor r hr => (hrecord r hr).mpr hanchor⟩,
    fun r hr => ⟨hposition r hr, hrecord r hr⟩, fun r hr ht => ?_⟩
  · obtain ⟨r, hr⟩ := hsome
    exact (hrecord r hr).mp (hall r hr)
  · rw [((hwritten r hr).resolved hd ht).material]
    obtain ⟨hlight, hroughness, hopacity⟩ := Resolver.isFraction_seeded (config.seed.getD entropy) r.toTerminal
    exact ⟨fun a ha => ⟨(hlight a ha).finite, (hlight a ha).range, (hlight a ha).multiple⟩, hroughness, hopacity⟩

theorem compileModel_finite_largest :
    let m : VoxelModel := ⟨⟨0x80000000, 1, 1⟩, [⟨0xffffffff, 5, 0⟩, ⟨0, 0, 0x40000000⟩, ⟨3, 3, 3⟩]⟩
    let config (anchor : Vec3 Single) : ConvertConfig := { maxDepth := 31, seed := some 7, anchor }
    (∃ compiled root, (compileModel m (config ⟨⟨0x7f7fffff⟩, ⟨0xff7fffff⟩, ⟨0x7f7fffff⟩⟩) 0).outcome = .ok compiled ∧
      compiled.records.back? = some root ∧ root.extent = 2 ^ 31 ∧
      ∀ r ∈ compiled.records, ∀ a ∈ r.numbers, a.isFinite = true) ∧
    ∃ compiled, (compileModel m (config ⟨.zero, ⟨0xff800000⟩, .zero⟩) 0).outcome = .ok compiled ∧
      ¬ ∀ r ∈ compiled.records, ∀ a ∈ r.numbers, a.isFinite = true := by
  intro m config
  have hm : m.rootSize = .ok (2 ^ 31) := by decide
  have hs : Octree.create (2 ^ 31) 31 = .ok ⟨31, Octree.maxNodes, #[⟨31, .empty⟩]⟩ := rfl
  have hroom := ((Octree.Grown.create hs).withLimit Octree.maxNodes).hasRoom (Octree.nodeBound_le (Nat.le_refl 31))
  obtain ⟨report, ho⟩ := hroom.2 m.points
  have hcompiled (anchor : Vec3 Single) : ∃ compiled, (compileModel m (config anchor) 0).outcome = .ok compiled ∧
      compiled.IsOf _ 31 := VoxelModel.exists_compiled _ hm hs ho
  obtain ⟨compiled, h, his⟩ := hcompiled ⟨⟨0x7f7fffff⟩, ⟨0xff7fffff⟩, ⟨0x7f7fffff⟩⟩
  obtain ⟨compiled', h', -⟩ := hcompiled ⟨.zero, ⟨0xff800000⟩, .zero⟩
  obtain ⟨root, hroot, -, hextent⟩ := his.exists_root
  refine ⟨⟨compiled, root, h, hroot, hextent, (compileModel_finite h).1.mpr (by decide)⟩, compiled', h', ?_⟩
  rw [(compileModel_finite h').1]
  decide

end VoxelOctree
