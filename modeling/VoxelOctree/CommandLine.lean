import VoxelOctree.CommandLine.Help
import VoxelOctree.CommandLine.Request

namespace VoxelOctree

namespace CommandLine

structure Exit where
  code : Nat
  stdout : List String
  stderr : List String
  fault : Option Fault
  deriving DecidableEq, Repr

def target : String := "fastvox_convert"

def reportLog (r : ConvertReport) : Log :=
  (if 0 < r.dropped then [⟨.warn, target,
    s!"{r.dropped} voxels lay on a split plane and are missing from the output"⟩] else []) ++
  [⟨.info, target,
    s!"Done: root size {r.rootSize}, {r.counts.total} records from {r.inserted + r.dropped} voxels"⟩]

def errorLines (e : Error) : List String :=
  Lines.ofString s!"Error: {e.message}" ++ match e.cause? with
    | some cause => ["", "Caused by:", s!"    {cause}"]
    | none => []

def exit (verbosity : Verbosity) (r : Run ConvertReport) : Exit :=
  match r.outcome with
  | .ok report => ⟨0, Log.shown (r.log ++ reportLog report) verbosity, [], none⟩
  | .error (.error e) => ⟨1, Log.shown r.log verbosity, errorLines e, none⟩
  | .error (.fault f) => ⟨101, Log.shown r.log verbosity, [], some f⟩

def answer : Except UsageError Request → Except Exit ConvertConfig
  | .error e => .error ⟨2, [], (Lines.ofString e.message).take 1, none⟩
  | .ok (.help isLong) => .error ⟨0, if isLong then helpText else summaryText, [], none⟩
  | .ok .version => .error ⟨0, versionText, [], none⟩
  | .ok (.convert config) => .ok config

def run (s : Store) (args : List String) (verbosity : Verbosity) (entropy : UInt64) : Store × Exit :=
  match answer (request args) with
  | .error e => (s, e)
  | .ok config =>
    let (s', r) := s.convert config entropy
    (s', exit verbosity r)

end CommandLine

end VoxelOctree
