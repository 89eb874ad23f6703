import VoxelOctree.CommandLine.Switch
import VoxelOctree.CommandLine.Value
import VoxelOctree.Convert
import VoxelOctree.Single.Literal
import VoxelOctree.Terminal

/-!
What a command line asks for. Arguments are taken from left to right. A switch waits for its values
until it has all of them or another switch comes; then its values are checked.
-/

namespace VoxelOctree

namespace CommandLine

inductive UsageError where
  | invalidValue (value : String) (switch : Switch) (reason : Option String)
  | valueRequired (switch : Switch)
  | wrongCount (switch : Switch) (count : Nat)
  | unexpectedArgument (argument : String)
  | unexpectedValue (value : String) (switch : Switch)
  | repeated (switch : Switch)
  deriving DecidableEq, Repr

def UsageError.message : UsageError → String
  | invalidValue value switch reason =>
    s!"error: invalid value '{Terminal.plain value}' for '{switch.usage}'" ++ match reason with
      | some r => s!": {r}"
      | none => ""
  | valueRequired switch => s!"error: a value is required for '{switch.usage}' but none was supplied"
  | wrongCount switch count =>
    let verb := if count = 1 then "was" else "were"
    s!"error: {switch.arity} values required for '{switch.usage}' but {count} {verb} provided"
  | unexpectedArgument argument => s!"error: unexpected argument '{Terminal.plain argument}' found"
  | unexpectedValue value switch =>
    s!"error: unexpected value '{Terminal.plain value}' for '{switch.usage}' found; no more were expected"
  | repeated switch => s!"error: the argument '{switch.usage}' cannot be used multiple times"

inductive Request where
  | convert (config : ConvertConfig)
  | help (isLong : Bool)
  | version
  deriving DecidableEq, Repr

structure State where
  seen : List Switch := []
  config : ConvertConfig := {}
  pending : Option (Switch × List String) := none
  deriving DecidableEq, Repr

abbrev Step (α : Type) := Except (UsageError ⊕ Request) α

def refuse {α : Type} (e : UsageError) : Step α :=
  .error (.inl e)

def integer (s : Switch) (value : String) : Step Nat :=
  match readUnsigned value.toList with
  | .ok n => .ok n
  | .error e => refuse (.invalidValue value s (some e.message))

def word (s : Switch) (value : String) : Step Nat :=
  match readSigned value.toList with
  | .ok n =>
    if 0 ≤ n ∧ n ≤ 4294967295 then .ok n.toNat
    else refuse (.invalidValue value s (some s!"{n} is not in 0..=4294967295"))
  | .error e => refuse (.invalidValue value s (some e.message))

def path (s : Switch) (value : String) : Step Path :=
  if value.isEmpty then refuse (.valueRequired s) else .ok (.ofString value)

def coordinate (s : Switch) (value : String) : Step Single :=
  match Single.ofLiteral value.toList with
  | .ok a => .ok a
  | .error e => refuse (.invalidValue value s (some e.message))

def outputFormat (s : Switch) (value : String) : Step OutputFormat :=
  match value with
  | "json" => .ok .json
  | "gpu" => .ok .gpu
  | "" => refuse (.valueRequired s)
  | _ => refuse (.invalidValue value s none)

/-- Puts the values of a switch into the configuration. Of several anchors the first counts. -/
def configure (c : ConvertConfig) (s : Switch) (isRepeated : Bool) (values : List String) :
    Step ConvertConfig :=
  match s, values with
  | .input, [v] => return { c with input := ← path s v }
  | .output, [v] => return { c with output := ← path s v }
  | .model, [v] => return { c with modelIndex := ← integer s v }
  | .maxDepth, [v] => return { c with maxDepth := ← word s v }
  | .maxNodes, [v] => return { c with nodeLimit := ← integer s v }
  | .seed, [v] => return { c with seed := some (UInt64.ofNat (← integer s v)) }
  | .format, [v] => return { c with format := ← outputFormat s v }
  | .anchor, [x, y, z] => do
    let anchor : Vec3 Single := ⟨← coordinate s x, ← coordinate s y, ← coordinate s z⟩
    return if isRepeated then c else { c with anchor }
  | .parallel, _ => return { c with isParallel := true }
  | .pretty, _ => return { c with isPretty := true }
  | _, _ => return c

/-- Takes a switch with its values: their number is checked first, then whether the switch was given
before, then the values themselves. -/
def commit (st : State) (s : Switch) (values : List String) : Step State := do
  if values.length ≠ s.arity then
    if values.isEmpty then refuse (.valueRequired s) else refuse (.wrongCount s values.length)
  let isRepeated := st.seen.contains s
  if isRepeated && !s.isRepeatable then refuse (.repeated s)
  let config ← configure st.config s isRepeated values
  return { seen := s :: st.seen, config, pending := none }

def settle (st : State) : Step State :=
  match st.pending with
  | some (s, values) => commit { st with pending := none } s values
  | none => .ok st

def takeSwitch (st : State) (s : Switch) (isLong : Bool) (attached : Option String) : Step State :=
  match attached with
  | some v =>
    if s.arity = 0 then refuse (.unexpectedValue v s) else do commit (← settle st) s [v]
  | none => do
    let st ← settle st
    if s.arity ≠ 0 then return { st with pending := some (s, []) }
    else match s with
      | .help => .error (.inr (.help isLong))
      | .version => .error (.inr .version)
      | _ => commit st s []

def takeValue (st : State) (arg : String) : Step State :=
  match st.pending with
  | some (s, values) =>
    if values.length < s.arity then return { st with pending := some (s, values ++ [arg]) }
    else refuse (.unexpectedArgument arg)
  | none => refuse (.unexpectedArgument arg)

/-- Whether a text looks like a number without its sign: digits, one point that is not in front and
not in the exponent, one `e` or `E` that is neither in front nor at the end. -/
def looksNumeric (s : List Char) : Bool :=
  let mantissa := s.takeWhile fun c => decide (c ≠ 'e' ∧ c ≠ 'E')
  let exponent := s.dropWhile fun c => decide (c ≠ 'e' ∧ c ≠ 'E')
  let whole := mantissa.takeWhile fun c => decide (c ≠ '.')
  let fraction := mantissa.dropWhile fun c => decide (c ≠ '.')
  whole.all Char.isDigit && (fraction.drop 1).all Char.isDigit &&
  (fraction.isEmpty || !whole.isEmpty) &&
  (exponent.isEmpty || (!mantissa.isEmpty && exponent.length ≠ 1 && (exponent.drop 1).all Char.isDigit))

def awaitsNegative (st : State) : Bool :=
  match st.pending with
  | some (s, values) => s.takesNegative && decide (values.length < s.arity)
  | none => false

def takeLong (st : State) (body : List Char) : Step State :=
  let name := "--" ++ String.ofList (body.takeWhile fun c => decide (c ≠ '='))
  let attached := match body.dropWhile fun c => decide (c ≠ '=') with
    | _ :: value => some (String.ofList value)
    | [] => none
  match Switch.ofLong? name with
  | some s => takeSwitch st s true attached
  | none => refuse (.unexpectedArgument name)

def takeShort (st : State) (letter : Char) (rest : List Char) : Step State :=
  match Switch.ofShort? letter with
  | none => refuse (.unexpectedArgument (String.ofList ['-', letter]))
  | some s =>
    let attached := match rest with
      | [] => none
      | c :: value => some (String.ofList (if c = '=' then value else rest))
    takeSwitch st s false (if s.arity = 0 then none else attached)

def take (st : State) (arg : String) : Step State :=
  match arg.toList with
  | '-' :: '-' :: body => takeLong st body
  | '-' :: letter :: rest =>
    if awaitsNegative st && looksNumeric (letter :: rest) then takeValue st arg
    else takeShort st letter rest
  | _ => takeValue st arg

def takeAll (st : State) : List String → Step State
  | [] => settle st
  | "--" :: rest =>
    match rest with
    | [] => settle st
    | arg :: _ => refuse (.unexpectedArgument arg)
  | arg :: rest => do takeAll (← take st arg) rest

def request (args : List String) : Except UsageError Request :=
  match takeAll {} args with
  | .ok st => .ok (.convert st.config)
  | .error (.inr r) => .ok r
  | .error (.inl e) => .error e

end CommandLine

end VoxelOctree
