import VoxelOctree.Convert
import VoxelOctree.Proofs.Flatten.Relocation

namespace VoxelOctree

namespace Run

variable {α β : Type}

theorem outcome_bind (r : Run α) (f : α → Run β) :
    (r >>= f).outcome = match r.outcome with
      | .ok a => (f a).outcome
      | .error e => .error e := by
  show (r.andThen f).outcome = _
  unfold andThen
  cases r.outcome <;> rfl

end Run

theorem Octree.Arena.insertAll {t : Octree} (h : t.Arena) (points : List Point) : (t.insertAll points).tree.Arena :=
  h.steps (run_steps points .empty h)

theorem Octree.Arena.flattenWith_eq {t : Octree} (h : t.Arena) (isParallel : Bool) (resolve : Resolver)
    (anchor : Vec3 Single) :
    t.flattenWith isParallel resolve anchor = .ok (t.cell.records resolve 0 t.depth anchor).toArray := by
  cases isParallel with
  | false => exact flatten_eq h resolve anchor
  | true => exact flattenByOctant_eq h resolve anchor

namespace VoxelModel

theorem compile_outcome (m : VoxelModel) (config : ConvertConfig) (resolve : Resolver) :
    (m.compile config resolve).outcome =
      match m.rootSize with
      | .error f => .error (.fault f)
      | .ok rootSize =>
        match Octree.create rootSize config.maxDepth with
        | .error e => .error (.error e)
        | .ok start =>
          let batch := (start.withLimit config.nodeLimit).insertAll m.points
          match batch.outcome with
          | .error e => .error (.error e)
          | .ok report => .ok ⟨(batch.tree.cell.records resolve 0 batch.tree.depth config.anchor).toArray, report⟩ := by
  unfold compile
  rw [Run.outcome_bind]
  cases m.rootSize with
  | error f => rfl
  | ok rootSize =>
    dsimp only [Run.ofFault, Except.mapError]
    rw [Run.outcome_bind]
    cases hc : Octree.create rootSize config.maxDepth with
    | error e => rfl
    | ok start =>
      dsimp only [Run.ofError, Except.mapError]
      rw [Run.outcome_bind]
      dsimp only [Run.tell]
      rw [Run.outcome_bind]
      cases ((start.withLimit config.nodeLimit).insertAll m.points).outcome with
      | error e => rfl
      | ok report =>
        have ha := ((Octree.Arena.create hc).withLimit config.nodeLimit).insertAll m.points
        dsimp only [Run.ofError, Except.mapError]
        rw [Run.outcome_bind, ha.flattenWith_eq]
        rfl

theorem compile_eq_ok_iff {m : VoxelModel} {config : ConvertConfig} {resolve : Resolver}
    {compiled : CompiledModel} : (m.compile config resolve).outcome = .ok compiled ↔
      ∃ rootSize start, m.rootSize = .ok rootSize ∧ Octree.create rootSize config.maxDepth = .ok start ∧
        let batch := (start.withLimit config.nodeLimit).insertAll m.points
        batch.outcome = .ok compiled.report ∧
          batch.tree.flatten resolve config.anchor = .ok compiled.records := by
  rw [compile_outcome]
  constructor
  · intro h
    split at h
    · cases h
    · next rootSize hm =>
      split at h
      · cases h
      · next start hc =>
        dsimp only at h
        split at h
        · cases h
        · next report ho =>
          cases h
          have ha := ((Octree.Arena.create hc).withLimit config.nodeLimit).insertAll m.points
          exact ⟨rootSize, start, hm, hc, ho, Octree.flatten_eq ha _ _⟩
  · rintro ⟨rootSize, start, hm, hc, ho, hf⟩
    have ha := ((Octree.Arena.create hc).withLimit config.nodeLimit).insertAll m.points
    rw [Octree.flatten_eq ha] at hf
    obtain ⟨records, report⟩ := compiled
    obtain rfl := Except.ok.inj hf
    rw [hm]
    dsimp only
    rw [hc]
    dsimp only at ho ⊢
    rw [ho]

end VoxelModel

/-- Flattening by octants and in one pass end alike, without a fault, and no position is cut to 32 bits. -/
theorem flatten_parallel :
    (∀ t : Octree, t.Reachable → ∀ (resolve : Resolver) (anchor : Vec3 Single), ∃ records : Array Record,
      t.flatten resolve anchor = .ok records ∧ t.flattenByOctant resolve anchor = .ok records ∧
        records.size = t.nodeCount ∧ ∀ n ≤ records.size, (UInt32.ofNat n).toNat = n) ∧
      ∀ (m : VoxelModel) (config : ConvertConfig) (seed entropy entropy' : UInt64),
        (compileModel m { config with seed := some seed, isParallel := true } entropy).outcome =
          (compileModel m { config with seed := some seed, isParallel := false } entropy').outcome := by
  constructor
  · intro t h resolve anchor
    have ha := h.arena
    have hsize : (t.cell.records resolve 0 t.depth anchor).toArray.size = t.nodeCount := by
      rw [List.size_toArray, Cell.length_records, ha.count_cell]
    refine ⟨_, Octree.flatten_eq ha resolve anchor, Octree.flattenByOctant_eq ha resolve anchor, hsize, ?_⟩
    intro n hn
    exact ha.toNat_ofNat (hsize ▸ hn)
  · intro m config seed entropy entropy'
    rw [compileModel, compileModel, VoxelModel.compile_outcome, VoxelModel.compile_outcome]
    rfl

theorem flatten_parallel_mixed : ∃ t : Octree, t.Reachable ∧ ∃ records : Array Record,
    t.flatten (Resolver.seeded 7) (.fill .one) = .ok records ∧
      t.flattenByOctant (Resolver.seeded 7) (.fill .one) = .ok records ∧ records.size = 17 := by
  have h : (Octree.exec ⟨2, Octree.maxNodes, #[⟨2, .empty⟩]⟩
      [.insert ⟨3, 0, 3⟩, .limit 9, .insertAll [⟨0, 0, 1⟩, ⟨0, 0, 0⟩, ⟨3, 3, 3⟩]]).Reachable :=
    ⟨4, 2, _, _, rfl, rfl⟩
  obtain ⟨records, hf, ho, hsize, -⟩ := flatten_parallel.1 _ h (Resolver.seeded 7) (.fill .one)
  refine ⟨_, h, records, hf, ho, ?_⟩
  rw [hsize]
  decide

end VoxelOctree
