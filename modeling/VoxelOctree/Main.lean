import VoxelOctree.CommandLine

namespace VoxelOctree

namespace Main

def directoryCode : UInt32 := 21

def lengthCode : UInt32 := 36

def causeText (e : IO.Error) : String :=
  match e with
  | .noFileOrDirectory .. => PathError.missing.message
  | .inappropriateType _ code _ =>
    if code = directoryCode then PathError.isDirectory.message else PathError.notDirectory.message
  | .invalidArgument _ code _ =>
    if code = lengthCode then PathError.nameTooLong.message else toString e
  | _ => toString e

def readInput (path : Path) : IO (Except ReadError (List UInt8)) := do
  try
    return .ok (← IO.FS.readBinFile path.text).toList
  catch e =>
    match e with
    | .inappropriateType _ code _ =>
      return .error (if code = directoryCode then .directory else .unopened)
    | _ => return .error .unopened

def writeOutput (path : Path) (bytes : List UInt8) : IO (Except String Unit) := do
  try
    IO.FS.writeBinFile path.text (ByteArray.mk bytes.toArray)
    return .ok ()
  catch e =>
    return .error (causeText e)

def verbosity : IO Verbosity := do
  match ← IO.getEnv "RUST_LOG" with
  | none => return some .info
  | some setting => return (Verbosity.ofName? ((setting.splitOn "=").getLastD "")).getD (some .info)

def finish (e : CommandLine.Exit) : IO UInt32 := do
  e.stdout.forM fun line => IO.println line
  e.stderr.forM fun line => IO.eprintln line
  match e.fault with
  | some f => IO.eprintln f.message
  | none => pure ()
  return UInt32.ofNat e.code

def convert (config : ConvertConfig) : IO (Run ConvertReport) := do
  let entropy ← IO.rand 0 (UInt64.size - 1)
  let prepared := Conversion.prepare config (← readInput config.input) (UInt64.ofNat entropy)
  match prepared.outcome with
  | .error f => return ⟨prepared.log, .error f⟩
  | .ok c =>
    let written ← writeOutput config.output c.bytes
    return prepared.andThen fun c => c.finish config written

end Main

end VoxelOctree

open VoxelOctree in
def main (args : List String) : IO UInt32 := do
  match CommandLine.answer (CommandLine.request args) with
  | .error e => Main.finish e
  | .ok config => do
    let run ← Main.convert config
    Main.finish (CommandLine.exit (← Main.verbosity) run)
