import VoxelOctree.Lines

namespace VoxelOctree

inductive Level where
  | error
  | warn
  | info
  | debug
  | trace
  deriving DecidableEq, Repr

namespace Level

def rank : Level → Nat
  | error => 1
  | warn => 2
  | info => 3
  | debug => 4
  | trace => 5

def text : Level → String
  | error => "ERROR"
  | warn => "WARN"
  | info => "INFO"
  | debug => "DEBUG"
  | trace => "TRACE"

end Level

abbrev Verbosity := Option Level

def Verbosity.ofName? : String → Option Verbosity
  | "off" => some none
  | "error" => some (some .error)
  | "warn" => some (some .warn)
  | "info" => some (some .info)
  | "debug" => some (some .debug)
  | "trace" => some (some .trace)
  | _ => none

def Verbosity.shows (v : Verbosity) (level : Level) : Bool :=
  match v with
  | none => false
  | some most => decide (level.rank ≤ most.rank)

structure LogLine where
  level : Level
  target : String
  message : String
  deriving DecidableEq, Repr

def LogLine.isTerminalControl (c : Char) : Bool :=
  c = '\x1b' || c = '\x07' || c = '\x08' || c = '\x0c' || c = '\x7f'

def LogLine.escape (c : Char) : List Char :=
  let n := c.toNat
  if isTerminalControl c then ['\\', 'x', Nat.digitChar (n / 16), Nat.digitChar (n % 16)]
  else if 0x80 ≤ n ∧ n ≤ 0x9F then
    ['\\', 'u', '\x7b', Nat.digitChar (n / 16), Nat.digitChar (n % 16), '\x7d']
  else [c]

def LogLine.text (line : LogLine) : String :=
  line.level.text ++ " " ++ line.target ++ ": " ++
    String.ofList (line.message.toList.flatMap escape)

abbrev Log := List LogLine

def Log.shown (log : Log) (v : Verbosity) : List String :=
  (log.filter fun line => v.shows line.level).flatMap fun line => Lines.ofString line.text

end VoxelOctree
