namespace VoxelOctree

namespace CommandLine

inductive Switch where
  | input
  | output
  | model
  | maxDepth
  | maxNodes
  | anchor
  | seed
  | parallel
  | format
  | pretty
  | help
  | version
  deriving DecidableEq, Repr

namespace Switch

def all : List Switch :=
  [input, output, model, maxDepth, maxNodes, anchor, seed, parallel, format, pretty, help, version]

def long : Switch → String
  | input => "--input"
  | output => "--output"
  | model => "--model"
  | maxDepth => "--max-depth"
  | maxNodes => "--max-nodes"
  | anchor => "--anchor"
  | seed => "--seed"
  | parallel => "--parallel"
  | format => "--format"
  | pretty => "--pretty"
  | help => "--help"
  | version => "--version"

def short? : Switch → Option Char
  | input => some 'i'
  | output => some 'o'
  | model => some 'm'
  | help => some 'h'
  | version => some 'V'
  | _ => none

def valueNames : Switch → List String
  | input => ["INPUT"]
  | output => ["OUTPUT"]
  | model => ["MODEL"]
  | maxDepth => ["MAX_DEPTH"]
  | maxNodes => ["MAX_NODES"]
  | anchor => ["X", "Y", "Z"]
  | seed => ["SEED"]
  | format => ["FORMAT"]
  | parallel | pretty | help | version => []

def arity (s : Switch) : Nat :=
  s.valueNames.length

def usage (s : Switch) : String :=
  " ".intercalate (s.long :: s.valueNames.map fun name => "<" ++ name ++ ">")

def takesNegative (s : Switch) : Bool :=
  decide (s = anchor)

def isRepeatable (s : Switch) : Bool :=
  decide (s = anchor)

def ofLong? (name : String) : Option Switch :=
  all.find? fun s => decide (s.long = name)

def ofShort? (c : Char) : Option Switch :=
  all.find? fun s => decide (s.short? = some c)

end Switch

end CommandLine

end VoxelOctree
