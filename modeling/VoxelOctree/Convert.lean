import VoxelOctree.Flatten
import VoxelOctree.Octree.Insert
import VoxelOctree.Record.Gpu
import VoxelOctree.Record.Text
import VoxelOctree.Run
import VoxelOctree.Store
import VoxelOctree.Vox

namespace VoxelOctree

inductive OutputFormat where
  | json
  | gpu
  deriving DecidableEq, Repr

def defaultInput : String := "test.vox"

def defaultOutput : String := "scene_vox.json"

structure ConvertConfig where
  input : Path := .ofString defaultInput
  output : Path := .ofString defaultOutput
  modelIndex : Nat := 0
  maxDepth : Nat := Octree.defaultMaxDepth
  nodeLimit : Nat := Octree.maxNodes
  anchor : Vec3 Single := .fill .zero
  seed : Option UInt64 := none
  isParallel : Bool := false
  format : OutputFormat := .json
  isPretty : Bool := false
  deriving DecidableEq, Repr

structure ConvertReport where
  rootSize : Nat
  inserted : Nat
  dropped : Nat
  counts : RecordCounts
  bytesWritten : Nat
  deriving DecidableEq, Repr

structure CompiledModel where
  records : Array Record
  report : InsertReport
  deriving DecidableEq, Repr

def VoxelModel.compile (m : VoxelModel) (config : ConvertConfig) (resolve : Resolver) : Run CompiledModel := do
  let rootSize ← Run.ofFault m.rootSize
  let tree ← Run.ofError (Octree.create rootSize config.maxDepth)
  let batch := (tree.withLimit config.nodeLimit).insertAll m.points
  Run.tell batch.log
  let report ← Run.ofError batch.outcome
  let records ← Run.ofFault (batch.tree.flattenWith config.isParallel resolve config.anchor)
  Run.tell (batch.tree.flattenLog config.isParallel records)
  return ⟨records, report⟩

/-- `entropy` seeds the materials if the configuration does not. -/
def compileModel (m : VoxelModel) (config : ConvertConfig) (entropy : UInt64) : Run CompiledModel :=
  m.compile config (.seeded (config.seed.getD entropy))

def encodeRecords (records : Array Record) (format : OutputFormat) (isPretty : Bool) : List UInt8 :=
  match format with
  | .json => Utf8.encode ((Layout.choose isPretty).records records.toList)
  | .gpu => Record.gpuBytes records.toList

def loadModel (path : Path) (index : Nat) (content : Except ReadError (List UInt8)) : Run VoxelModel :=
  if !path.isText then .fail (Error.inputDecode s!"non UTF-8 path {path.text}")
  else match content with
    | .error .unopened => .fail (Error.inputDecode s!"{path.text}: Unable to load file")
    | .error .directory => .fail Fault.directoryRead
    | .ok bytes =>
      match Vox.model bytes index with
      | .ok m => do
        Run.tell (Vox.decodeLog index m)
        return m
      | .error .notVox =>
        .fail (Error.inputDecode s!"{path.text}: {Vox.Refusal.notVox.message}")
      | .error r => .fail (Error.inputDecode r.message)

structure Conversion where
  rootSize : Nat
  report : InsertReport
  counts : RecordCounts
  bytes : List UInt8
  deriving DecidableEq, Repr

namespace Conversion

def target : String := "fastvox_scene::pipeline"

def say (message : String) : Run Unit :=
  Run.tell [⟨.info, target, message⟩]

def prepare (config : ConvertConfig) (content : Except ReadError (List UInt8)) (entropy : UInt64) :
    Run Conversion := do
  say s!"Loading {config.input.text}"
  let m ← loadModel config.input config.modelIndex content
  let rootSize ← Run.ofFault m.rootSize
  say (s!"Model {config.modelIndex}: {m.points.length} voxels, extent {Point.text m.size}, " ++
    s!"root size {rootSize}")
  let compiled ← compileModel m config entropy
  let counts := RecordCounts.ofRecords compiled.records
  say (s!"Compiled {counts.total} records ({counts.internal} internal, {counts.leaf} leaf, " ++
    s!"{counts.empty} empty)")
  return ⟨rootSize, compiled.report, counts,
    encodeRecords compiled.records config.format config.isPretty⟩

def finish (config : ConvertConfig) (c : Conversion) (written : Except String Unit) :
    Run ConvertReport :=
  match written with
  | .error cause => .fail (Error.outputWrite config.output.text cause)
  | .ok () => do
    say s!"Wrote {c.bytes.length} bytes to {config.output.text}"
    return ⟨c.rootSize, c.report.inserted, c.report.dropped.size, c.counts, c.bytes.length⟩

end Conversion

namespace Store

/-- Converts a file of the store into another. The output is complete before the store is touched. -/
def convert (s : Store) (config : ConvertConfig) (entropy : UInt64) : Store × Run ConvertReport :=
  let prepared := Conversion.prepare config (s.read config.input) entropy
  match prepared.outcome with
  | .error f => (s, ⟨prepared.log, .error f⟩)
  | .ok c =>
    match s.write config.output c.bytes with
    | .error e => (s, prepared.andThen fun c => c.finish config (.error e.message))
    | .ok s' => (s', prepared.andThen fun c => c.finish config (.ok ()))

end Store

end VoxelOctree
