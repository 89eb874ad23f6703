import Mathlib.Order.Bounds.Basic
import VoxelOctree.Proofs.Convert.Membership
import VoxelOctree.Proofs.Flatten.Loop
import VoxelOctree.Proofs.Octree.Loop

namespace VoxelOctree

namespace VoxelModel

theorem isLeast_powerAbove (n : Nat) : IsLeast {r | n ≤ r ∧ ∃ k, r = 2 ^ k} (powerAbove n) := by
  unfold powerAbove
  split_ifs with hone
  · refine ⟨⟨hone, 0, rfl⟩, ?_⟩
    rintro _ ⟨-, k, rfl⟩
    exact Nat.two_pow_pos k
  · have hne : n - 1 ≠ 0 := by omega
    have hlt : n - 1 < 2 ^ ((n - 1).log2 + 1) := Nat.lt_log2_self
    refine ⟨⟨by omega, _, rfl⟩, ?_⟩
    rintro _ ⟨hle, k, rfl⟩
    have hlog : (n - 1).log2 < k := (Nat.log2_lt hne).mpr (by omega)
    exact Nat.pow_le_pow_right Nat.zero_lt_two hlog

variable {m : VoxelModel}

theorem rootSize_of_le (h : m.extent ≤ 0x80000000) :
    ∃ d, m.rootSize = .ok (2 ^ d) ∧ IsLeast {r | m.extent ≤ r ∧ ∃ k, r = 2 ^ k} (2 ^ d) := by
  have hleast := isLeast_powerAbove m.extent
  obtain ⟨-, d, hd⟩ := hleast.1
  refine ⟨d, ?_, hd ▸ hleast⟩
  rw [rootSize, if_pos h, hd]

theorem rootSize_of_lt (h : 0x80000000 < m.extent) : m.rootSize = .error .addOverflow :=
  if_neg (Nat.not_le_of_lt h)

end VoxelModel

namespace Octree

theorem create_of_lt {d maxDepth : Nat} (h : maxDepth < d) :
    create (2 ^ d) maxDepth = .error (.depthLimitExceeded (2 ^ d) d maxDepth) := by
  simp [create, Nat.log2_two_pow, h]

def IsWalkable (t : Octree) : Prop :=
  ∀ id n, t.nodes[id]? = some n → ∀ (resolve : Resolver) (position : Vec3 Single), ∃ link records,
    Flatten.walk t resolve [.visit id n.level position] [] #[] = .ok ([link], records) ∧
      link.toNat + 1 = records.size ∧ ∀ rounds, Flatten.visitWeight n.level ≤ rounds →
        Flatten.Progress.loop t resolve rounds ⟨[.visit id position], [], #[]⟩ = .ok (some ([link], records))

namespace Arena

variable {t : Octree}

theorem isWalkable (h : Arena t) : t.IsWalkable := by
  rintro id ⟨level, kind⟩ hn resolve position
  have hpos := (t.cellAt id level).count_pos
  have hlt : (t.cellAt id level).count - 1 < UInt32.size := by
    have := h.count_cellAt_le hn
    have := h.size_le_word
    unfold nodeCount at *
    omega
  have hwalk := (Flatten.visits resolve h hn position [] [] #[]).trans (Flatten.walk.eq_def ..)
  refine ⟨_, _, hwalk, ?_, fun rounds hr => ?_⟩
  · simp only [Array.size_append, List.size_toArray, List.length_nil, Nat.zero_add, Cell.length_records]
    rw [UInt32.toNat_ofNat_of_lt' hlt]
    omega
  · rw [Flatten.Progress.loop_visit h hn hr, hwalk]
    rfl

end Arena

end Octree

theorem Block.exists_last {t : Octree} {resolve : Resolver} {records : Array Record} {ids : List Nat}
    {id level lo hi : Nat} {position : Vec3 Single} (h : Block t resolve records ids id level position lo hi) :
    ∃ r, records[hi - 1]? = some r ∧ r.size = Single.ofNat (2 ^ level) := by
  cases h with
  | terminal hn hk hid hr => exact ⟨_, hr, rfl⟩
  | internal hn hlo hlast hc hid hr => exact ⟨_, hr, rfl⟩

structure CompiledModel.IsOf (compiled : CompiledModel) (batch : Batch) (d : Nat) : Prop where
  outcome_eq : batch.outcome = .ok compiled.report
  size_eq : compiled.records.size = batch.tree.nodeCount
  exists_root : ∃ root, compiled.records.back? = some root ∧ root.size = Single.ofNat (2 ^ d) ∧ root.extent = 2 ^ d

inductive Ending (m : VoxelModel) (config : ConvertConfig) : Except Failure CompiledModel → Prop
  | overflow (hm : 0x80000000 < m.extent) : Ending m config (.error (.fault .addOverflow))
  | deep {rootSize d : Nat} (hm : m.rootSize = .ok rootSize) (hr : rootSize = 2 ^ d) (hd : config.maxDepth < d) :
      Ending m config (.error (.error (.depthLimitExceeded rootSize d config.maxDepth)))
  | full {d : Nat} {start : Octree} {a : ArenaFull} (hm : m.rootSize = .ok (2 ^ d))
      (hs : Octree.create (2 ^ d) config.maxDepth = .ok start)
      (hf : ((start.withLimit config.nodeLimit).insertAll m.points).outcome = .error (.arenaFull a)) :
      Ending m config (.error (.error (.arenaFull a)))
  | compiled {d : Nat} {start : Octree} {compiled : CompiledModel} (hm : m.rootSize = .ok (2 ^ d))
      (hs : Octree.create (2 ^ d) config.maxDepth = .ok start)
      (hc : compiled.IsOf ((start.withLimit config.nodeLimit).insertAll m.points) d) : Ending m config (.ok compiled)

namespace VoxelModel

variable {m : VoxelModel} {config : ConvertConfig} {d : Nat} {start : Octree} (resolve : Resolver)

theorem compile_of_overflow (hm : 0x80000000 < m.extent) :
    (m.compile config resolve).outcome = .error (.fault .addOverflow) := by
  rw [compile_outcome, rootSize_of_lt hm]

theorem compile_of_deep (hm : m.rootSize = .ok (2 ^ d)) (hd : config.maxDepth < d) :
    (m.compile config resolve).outcome =
      .error (.error (.depthLimitExceeded (2 ^ d) d config.maxDepth)) := by
  rw [compile_outcome, hm]
  dsimp only
  rw [Octree.create_of_lt hd]

theorem compile_of_full (hm : m.rootSize = .ok (2 ^ d))
    (hs : Octree.create (2 ^ d) config.maxDepth = .ok start) {a : ArenaFull}
    (hf : ((start.withLimit config.nodeLimit).insertAll m.points).outcome = .error (.arenaFull a)) :
    (m.compile config resolve).outcome = .error (.error (.arenaFull a)) := by
  rw [compile_outcome, hm]
  dsimp only
  rw [hs]
  dsimp only
  rw [hf]

theorem exists_compiled (hm : m.rootSize = .ok (2 ^ d))
    (hs : Octree.create (2 ^ d) config.maxDepth = .ok start) {report : InsertReport}
    (ho : ((start.withLimit config.nodeLimit).insertAll m.points).outcome = .ok report) :
    ∃ compiled, (m.compile config resolve).outcome = .ok compiled ∧
      compiled.IsOf ((start.withLimit config.nodeLimit).insertAll m.points) d := by
  have hstart := (Octree.Arena.create hs).withLimit config.nodeLimit
  have hd : start.depth = d := Nat.pow_right_injective (Nat.le_refl 2) (Octree.depth_create hs)
  have hlt : d < 32 := hd ▸ Octree.depth_lt_of_create hs (rootSize_lt hm)
  obtain ⟨records, hf, hsize, hb⟩ :=
    exists_block (hstart.insertAll m.points) resolve config.anchor
  have hdepth : ((start.withLimit config.nodeLimit).insertAll m.points).tree.depth = d :=
    (Octree.run_steps m.points .empty hstart).depth_eq.trans hd
  rw [hdepth] at hb
  obtain ⟨root, hroot, he⟩ := hb.exists_last
  have hlast : records.back? = some root := Array.back?_eq_getElem?.trans hroot
  exact ⟨⟨records, report⟩, compile_eq_ok_iff.mpr ⟨_, start, hm, hs, ho, hf⟩, ho, hsize, root, hlast, he,
    Record.extent_of_size hlt he⟩

theorem compile_ending (m : VoxelModel) (config : ConvertConfig) :
    Ending m config (m.compile config resolve).outcome := by
  rcases Nat.lt_or_ge 0x80000000 m.extent with hlarge | hle
  · rw [compile_of_overflow resolve hlarge]
    exact .overflow hlarge
  · obtain ⟨d, hm, -⟩ := rootSize_of_le hle
    rcases Nat.lt_or_ge config.maxDepth d with hd | hd
    · rw [compile_of_deep resolve hm hd]
      exact .deep hm rfl hd
    · have hs := Octree.create_eq_ok_iff.mpr ⟨d, hd, rfl, rfl⟩
      rcases Batch.outcome_cases ((Octree.withLimit _ config.nodeLimit).insertAll m.points) with ⟨a, hf⟩ | ho
      · rw [compile_of_full resolve hm hs hf]
        exact .full hm hs hf
      · obtain ⟨compiled, hc, his⟩ := exists_compiled resolve hm hs ho
        rw [hc]
        exact .compiled hm hs his

end VoxelModel

structure Built (m : VoxelModel) (config : ConvertConfig) (d : Nat) (outcome : Except Failure CompiledModel)
    (start : Octree) (batch : Batch) : Prop where
  created : Octree.create (2 ^ d) config.maxDepth = .ok start
  inserted : (start.withLimit config.nodeLimit).insertAll m.points = batch
  loop : Batch.loop (d + 1) (start.withLimit config.nodeLimit) .empty m.points = .ok (some batch)
  walkable : batch.tree.IsWalkable
  full_iff : ∀ a, outcome = .error (.error (.arenaFull a)) ↔ batch.outcome = .error (.arenaFull a)
  compiled : (∀ a, batch.outcome ≠ .error (.arenaFull a)) → ∃ compiled, outcome = .ok compiled ∧ compiled.IsOf batch d

structure Compilation (m : VoxelModel) (config : ConvertConfig) (outcome : Except Failure CompiledModel) : Prop where
  overflow : 0x80000000 < m.extent → outcome = .error (.fault .addOverflow)
  depth : m.extent ≤ 0x80000000 → ∃ d, IsLeast {r | m.extent ≤ r ∧ ∃ k, r = 2 ^ k} (2 ^ d) ∧
    (outcome = .error (.error (.depthLimitExceeded (2 ^ d) d config.maxDepth)) ↔ config.maxDepth < d) ∧
    (d ≤ config.maxDepth → ∃ start batch, Built m config d outcome start batch)
  rootSize : ∀ r, outcome ≠ .error (.error (.invalidRootSize r))
  fault_iff : ∀ f, outcome = .error (.fault f) ↔ f = .addOverflow ∧ 0x80000000 < m.extent

/-- Whatever the model and the materials, a compilation ends in one of four ways: with the only fault, because of the
extent alone; too deep for the configuration; with the full arena of its batch; or with the records of its octree. -/
theorem VoxelModel.compile_cases (m : VoxelModel) (config : ConvertConfig) (resolve : Resolver) :
    Compilation m config (m.compile config resolve).outcome := by
  have hending := m.compile_ending resolve config
  refine ⟨m.compile_of_overflow resolve, fun hle => ?_, fun r h => ?_, fun f => ⟨fun h => ?_, ?_⟩⟩
  · obtain ⟨d, hm, hleast⟩ := VoxelModel.rootSize_of_le hle
    refine ⟨d, hleast, ⟨fun h => ?_, VoxelModel.compile_of_deep resolve hm⟩, fun hd => ?_⟩
    · rw [h] at hending
      cases hending with
      | deep hm' hr hd => exact hd
    · have hs := Octree.create_eq_ok_iff.mpr ⟨d, hd, rfl, rfl⟩
      have hstart := (Octree.Arena.create hs).withLimit config.nodeLimit
      refine ⟨_, _, hs, rfl, Batch.loop_eq m.points .empty hstart, (hstart.insertAll m.points).isWalkable,
        fun a => ⟨fun h => ?_, VoxelModel.compile_of_full resolve hm hs⟩, fun hroom => ?_⟩
      · rw [h] at hending
        cases hending with
        | @full d' start' a hm' hs' hf =>
          obtain rfl : d' = d := Nat.pow_right_injective (Nat.le_refl 2) (Except.ok.inj (hm'.symm.trans hm))
          obtain rfl := Except.ok.inj (hs'.symm.trans hs)
          exact hf
      · rcases Batch.outcome_cases ((Octree.withLimit _ config.nodeLimit).insertAll m.points) with ⟨a, hf⟩ | ho
        · exact absurd hf (hroom a)
        · exact VoxelModel.exists_compiled resolve hm hs ho
  · rw [h] at hending
    cases hending
  · rw [h] at hending
    cases hending with
    | overflow hm => exact ⟨rfl, hm⟩
  · rintro ⟨rfl, hm⟩
    exact m.compile_of_overflow resolve hm

theorem compileModel_cases_all :
    (compileModel ⟨⟨4, 0x80000001, 1⟩, [⟨0, 0, 0⟩]⟩ {} 7).outcome = .error (.fault .addOverflow) ∧
      (compileModel ⟨⟨4, 0x80000000, 1⟩, [⟨0, 0, 0⟩]⟩ {} 7).outcome =
        .error (.error (.depthLimitExceeded 0x80000000 31 16)) ∧
      (compileModel ⟨⟨3, 4, 0⟩, [⟨1, 9, 9⟩, ⟨3, 3, 3⟩]⟩ { nodeLimit := 9 } 7).outcome =
        .error (.error (.arenaFull ⟨9, 9⟩)) ∧
      ∃ compiled root, (compileModel ⟨⟨3, 4, 0⟩, [⟨3, 3, 3⟩, ⟨9, 9, 9⟩]⟩ {} 7).outcome = .ok compiled ∧
        compiled.records.size = 17 ∧ compiled.records.back? = some root ∧ root.extent = 4 := by
  have hoverflow := VoxelModel.compile_cases ⟨⟨4, 0x80000001, 1⟩, [⟨0, 0, 0⟩]⟩ {} (.seeded 7)
  have hdeep := VoxelModel.compile_cases ⟨⟨4, 0x80000000, 1⟩, [⟨0, 0, 0⟩]⟩ {} (.seeded 7)
  have hfull := VoxelModel.compile_cases ⟨⟨3, 4, 0⟩, [⟨1, 9, 9⟩, ⟨3, 3, 3⟩]⟩ { nodeLimit := 9 } (.seeded 7)
  have hfit := VoxelModel.compile_cases ⟨⟨3, 4, 0⟩, [⟨3, 3, 3⟩, ⟨9, 9, 9⟩]⟩ {} (.seeded 7)
  refine ⟨hoverflow.overflow (by decide), ?_, ?_, ?_⟩
  · obtain ⟨d, hleast, hdepth, -⟩ := hdeep.depth (by decide)
    obtain rfl : d = 31 :=
      Nat.pow_right_injective (Nat.le_refl 2) (hleast.unique (VoxelModel.isLeast_powerAbove 0x80000000))
    exact hdepth.mpr (by decide)
  · obtain ⟨d, hleast, -, hbuilt⟩ := hfull.depth (by decide)
    obtain rfl : d = 2 := Nat.pow_right_injective (Nat.le_refl 2) (hleast.unique (VoxelModel.isLeast_powerAbove 4))
    obtain ⟨start, batch, hb⟩ := hbuilt (by decide)
    cases hb.created
    cases hb.inserted
    exact (hb.full_iff _).mpr (by decide)
  · obtain ⟨d, hleast, -, hbuilt⟩ := hfit.depth (by decide)
    obtain rfl : d = 2 := Nat.pow_right_injective (Nat.le_refl 2) (hleast.unique (VoxelModel.isLeast_powerAbove 4))
    obtain ⟨start, batch, hb⟩ := hbuilt (by decide)
    cases hb.created
    cases hb.inserted
    obtain ⟨compiled, hc, his⟩ := hb.compiled (by rintro a ⟨⟩)
    obtain ⟨root, hroot, -, hextent⟩ := his.exists_root
    exact ⟨compiled, root, hc, his.size_eq.trans (by decide), hroot, hextent⟩

end VoxelOctree
