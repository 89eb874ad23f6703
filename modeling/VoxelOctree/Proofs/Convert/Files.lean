import VoxelOctree.Proofs.Convert.Compile
import VoxelOctree.Proofs.Flatten.Block
import VoxelOctree.Proofs.Json.Skip
import VoxelOctree.Proofs.Octree.Verdict
import VoxelOctree.Proofs.Record.Gpu
import VoxelOctree.Proofs.Store
import VoxelOctree.Proofs.Vox.RoundTrip

namespace VoxelOctree

namespace RecordCounts

theorem total_add (c : RecordCounts) (r : Record) : (c.add r).total = c.total + 1 := by
  rw [add]
  split_ifs <;> simp only [total] <;> omega

theorem total_ofRecords (records : Array Record) : (ofRecords records).total = records.size := by
  have hfold (rs : List Record) (c : RecordCounts) : (rs.foldl add c).total = c.total + rs.length := by
    induction rs generalizing c with
    | nil => rfl
    | cons r rs ih =>
      rw [List.foldl_cons, ih, total_add, List.length_cons]
      omega
  rw [ofRecords, ← Array.foldl_toList, hfold, Array.length_toList]
  exact Nat.zero_add _

end RecordCounts

theorem total_report {m : VoxelModel} {config : ConvertConfig} {entropy : UInt64} {compiled : CompiledModel}
    (h : (compileModel m config entropy).outcome = .ok compiled) : compiled.report.total = m.points.length := by
  obtain ⟨rootSize, start, -, -, ho, -⟩ := VoxelModel.compile_eq_ok_iff.mp h
  obtain ⟨hfull, hreport⟩ := Batch.eq_report ho
  rw [← hreport, Octree.insertAll, Batch.total_run _ hfull]
  exact Nat.zero_add _

theorem Run.bind_eq_ok_iff {α β : Type} {r : Run α} {f : α → Run β} {b : β} :
    (r >>= f).outcome = .ok b ↔ ∃ a, r.outcome = .ok a ∧ (f a).outcome = .ok b := by
  rw [outcome_bind]
  cases r.outcome <;> simp

theorem mapError_eq_ok_iff {α ε δ : Type} {r : Except ε α} {f : ε → δ} {a : α} :
    r.mapError f = .ok a ↔ r = .ok a := by
  cases r <;> simp [Except.mapError]

theorem loadModel_eq_ok_iff {path : Path} {index : Nat} {content : Except ReadError (List UInt8)} {m : VoxelModel} :
    (loadModel path index content).outcome = .ok m ↔
      path.isText = true ∧ ∃ bytes, content = .ok bytes ∧ Vox.decode bytes index = .ok m := by
  simp only [Vox.decode, mapError_eq_ok_iff, loadModel]
  cases path.isText with
  | false => simp [Run.fail]
  | true =>
    rcases content with (_ | _) | bytes
    · simp [Run.fail]
    · simp [Run.fail]
    · rcases hm : Vox.model bytes index with (_ | _) | m'
      · simp [Run.fail, hm]
      · simp [Run.fail, hm]
      · simp [hm, Run.bind_eq_ok_iff, Run.tell, pure, Run.ok]

namespace Conversion

variable {config : ConvertConfig} {content : Except ReadError (List UInt8)} {entropy : UInt64} {c : Conversion}

theorem prepare_eq_ok_iff : (prepare config content entropy).outcome = .ok c ↔
    ∃ m rootSize compiled, (loadModel config.input config.modelIndex content).outcome = .ok m ∧
      m.rootSize = .ok rootSize ∧ (compileModel m config entropy).outcome = .ok compiled ∧
      c = ⟨rootSize, compiled.report, .ofRecords compiled.records,
        encodeRecords compiled.records config.format config.isPretty⟩ := by
  simp only [prepare, Run.bind_eq_ok_iff, say, Run.tell, Run.ofFault, mapError_eq_ok_iff, pure, Run.ok,
    Except.ok.injEq, exists_and_left, eq_comm (b := c), true_and, exists_const]

end Conversion

namespace Store

variable {s : Store} {config : ConvertConfig} {entropy : UInt64}

theorem outcome_andThen {α β : Type} {r : Run α} {a : α} (h : r.outcome = .ok a) (f : α → Run β) :
    (r.andThen f).outcome = (f a).outcome := by
  rw [Run.andThen, h]

theorem convert_of_written {c : Conversion} {s' : Store}
    (hp : (Conversion.prepare config (s.read config.input) entropy).outcome = .ok c)
    (hw : s.write config.output c.bytes = .ok s') :
    (s.convert config entropy).1 = s' ∧ (s.convert config entropy).2.outcome =
      .ok ⟨c.rootSize, c.report.inserted, c.report.dropped.size, c.counts, c.bytes.length⟩ := by
  simp only [convert, hp, hw, true_and]
  exact outcome_andThen hp _

theorem convert_cases (s : Store) (config : ConvertConfig) (entropy : UInt64) :
    (s.convert config entropy).1 = s ∧ (∃ f, (s.convert config entropy).2.outcome = .error f) ∨
      ∃ c, (Conversion.prepare config (s.read config.input) entropy).outcome = .ok c ∧
        s.write config.output c.bytes = .ok (s.convert config entropy).1 ∧ (s.convert config entropy).2.outcome =
          .ok ⟨c.rootSize, c.report.inserted, c.report.dropped.size, c.counts, c.bytes.length⟩ := by
  cases hp : (Conversion.prepare config (s.read config.input) entropy).outcome with
  | error f => exact .inl (by simp [convert, hp])
  | ok c =>
    cases hw : s.write config.output c.bytes with
    | error e =>
      left
      simp only [convert, hp, hw, true_and, outcome_andThen hp]
      exact ⟨_, rfl⟩
    | ok s' =>
      obtain ⟨hs, ho⟩ := convert_of_written hp hw
      exact .inr ⟨c, rfl, by rw [hw, hs], ho⟩

end Store

theorem length_encodeRecords_gpu (records : Array Record) (isPretty : Bool) :
    (encodeRecords records .gpu isPretty).length = 176 * records.size := by
  rw [encodeRecords, Record.length_gpuBytes, Array.length_toList]
  rfl

theorem compileModel_seeded {m : VoxelModel} {config : ConvertConfig} (hs : config.seed.isSome = true)
    (entropy entropy' : UInt64) :
    (compileModel m config entropy).outcome = (compileModel m config entropy').outcome := by
  obtain ⟨seed, hseed⟩ := Option.isSome_iff_exists.mp hs
  rw [compileModel, compileModel, hseed]
  rfl

/-- A report that is true of a model and of the bytes that were written for it. -/
structure ConvertReport.IsTrue (report : ConvertReport) (format : OutputFormat) (m : VoxelModel) (written : List UInt8) :
    Prop where
  bytesWritten : report.bytesWritten = written.length
  points : report.inserted + report.dropped = m.points.length
  rootSize : m.rootSize = .ok report.rootSize
  total : match format with
    | .json => Json.arrayLength (Utf8.lossy written) = .ok report.counts.total
    | .gpu => written.length = 176 * report.counts.total

/-- The model `m` was read from the input as it was in `s`, and the records `c` were written to location `l`. -/
structure Store.Converted (s s' : Store) (config : ConvertConfig) (entropy : UInt64) (m : VoxelModel) (c : CompiledModel)
    (l : Location) (report : ConvertReport) : Prop where
  decoded : ∃ bytes, s.read config.input = .ok bytes ∧ Vox.decode bytes config.modelIndex = .ok m
  compiled : (compileModel m config entropy).outcome = .ok c
  seeded : config.seed.isSome = true → ∀ entropy', (compileModel m config entropy').outcome = .ok c
  resolved : s.resolve config.output = .ok l
  wrote : s.Wrote s' config.output l (encodeRecords c.records config.format config.isPretty)
  reported : report.IsTrue config.format m (encodeRecords c.records config.format config.isPretty)

/-- A conversion that fails leaves every file as it was. One that does not changes the output file and no other; the file
then holds the records of the model that the input held before, and the report tells the truth about both. -/
theorem convert_atomic (s : Store) (config : ConvertConfig) (entropy : UInt64) :
    let s' := (s.convert config entropy).1
    let outcome := (s.convert config entropy).2.outcome
    (∀ f, outcome = .error f → s' = s) ∧
      ∀ report, outcome = .ok report → ∃ m compiled l, s.Converted s' config entropy m compiled l report := by
  intro s' outcome
  rcases s.convert_cases config entropy with ⟨hs, f, ho⟩ | ⟨c, hp, hw, ho⟩
  · refine ⟨fun _ _ => hs, fun report hr => ?_⟩
    cases ho.symm.trans hr
  · refine ⟨fun f hf => ?_, fun report hr => ?_⟩
    · cases ho.symm.trans hf
    · obtain rfl := Except.ok.inj (ho.symm.trans hr)
      obtain ⟨m, rootSize, compiled, hm, hroot, hc, rfl⟩ := Conversion.prepare_eq_ok_iff.mp hp
      obtain ⟨-, bytes, hread, hdecode⟩ := loadModel_eq_ok_iff.mp hm
      obtain ⟨l, hl, hwrote⟩ := Store.wrote_of_write hw
      refine ⟨m, compiled, l, ⟨bytes, hread, hdecode⟩, hc, ?seeded, hl, hwrote, rfl, total_report hc, hroot, ?total⟩
      case seeded =>
        intro hseed entropy'
        rw [compileModel_seeded hseed entropy' entropy, hc]
      case total =>
        dsimp only
        rw [RecordCounts.total_ofRecords]
        cases config.format with
        | json => exact Json.arrayLength_encodeRecords compiled.records config.isPretty
        | gpu => exact length_encodeRecords_gpu compiled.records config.isPretty

theorem convert_atomic_overwrite : ∃ (s : Store) (config : ConvertConfig) (report : ConvertReport),
    config.input = config.output ∧ config.seed = some 7 ∧ config.anchor = .fill .nan ∧
      (s.convert config 0).2.outcome = .ok report ∧ report.inserted + report.dropped = 3 ∧ report.rootSize = 4 ∧
      ∃ written, Store.read (s.convert config 0).1 config.output = .ok written ∧ report.bytesWritten = written.length ∧
        Json.arrayLength (Utf8.lossy written) = .ok 25 := by
  let f : Vox.File := ⟨150, [], [⟨⟨4, 4, 4⟩, [⟨0, 0, 0, 1⟩, ⟨3, 1, 3, 1⟩, ⟨3, 3, 3, 2⟩], [], []⟩], [], []⟩
  have hf : f.IsWritable := ⟨by simp [f, Vox.ModelChunks.others], by simp [f], by decide, by decide +kernel⟩
  let s : Store := ⟨[([[0x61]], f.bytes)], []⟩
  let config : ConvertConfig := { input := ⟨[0x61]⟩, output := ⟨[0x61]⟩, anchor := .fill .nan, seed := some 7 }
  let m : VoxelModel := ⟨⟨4, 4, 4⟩, [⟨0, 0, 0⟩, ⟨3, 1, 3⟩, ⟨3, 3, 3⟩]⟩
  have hread : s.read config.input = .ok f.bytes := rfl
  have hdecode : Vox.decode f.bytes config.modelIndex = .ok m := by
    rw [Vox.decode, mapError_eq_ok_iff, Vox.model, hf.models?_bytes]
    rfl
  have hload : (loadModel config.input config.modelIndex (s.read config.input)).outcome = .ok m :=
    loadModel_eq_ok_iff.mpr ⟨by decide +kernel, _, hread, hdecode⟩
  have hroot : VoxelModel.rootSize ⟨⟨4, 4, 4⟩, [⟨0, 0, 0⟩, ⟨3, 1, 3⟩, ⟨3, 3, 3⟩]⟩ = .ok 4 := rfl
  have hstart : Octree.create 4 config.maxDepth = .ok ⟨2, Octree.maxNodes, #[⟨2, .empty⟩]⟩ := rfl
  have hbatch : ((Octree.withLimit ⟨2, Octree.maxNodes, #[⟨2, .empty⟩]⟩ Octree.maxNodes).insertAll
      [⟨0, 0, 0⟩, ⟨3, 1, 3⟩, ⟨3, 3, 3⟩]).outcome = .ok ⟨2, #[⟨⟨3, 1, 3⟩, 2, 1⟩]⟩ := rfl
  have ha := ((Octree.Arena.create hstart).withLimit config.nodeLimit).insertAll m.points
  obtain ⟨records, hflat, hsize, -⟩ := exists_block ha (Resolver.seeded 7) config.anchor
  have hcompile : (compileModel m config 0).outcome = .ok ⟨records, 2, #[⟨⟨3, 1, 3⟩, 2, 1⟩]⟩ :=
    VoxelModel.compile_eq_ok_iff.mpr ⟨4, _, hroot, hstart, hbatch, hflat⟩
  have hprepare := Conversion.prepare_eq_ok_iff.mpr ⟨m, 4, _, hload, hroot, hcompile, rfl⟩
  obtain ⟨s', hwrite⟩ : ∃ s', s.write config.output (encodeRecords records .json false) = .ok s' := ⟨_, rfl⟩
  obtain ⟨-, hok⟩ := Store.convert_of_written hprepare hwrite
  obtain ⟨_, compiled, l, hconverted⟩ := (convert_atomic s config 0).2 _ hok
  obtain rfl : [[0x61]] = l := Except.ok.inj hconverted.resolved
  have htotal : (RecordCounts.ofRecords records).total = 25 := by
    rw [RecordCounts.total_ofRecords, hsize]
    decide
  refine ⟨s, config, _, rfl, rfl, rfl, hok, rfl, rfl, _, hconverted.wrote.readBack (by decide),
    hconverted.reported.bytesWritten, ?_⟩
  rw [← htotal]
  exact hconverted.reported.total

end VoxelOctree
