import WorldMap.Text.ControlSequence
import WorldMap.Text.Number
/-!
# Command line arguments

There are parameters, which take a value, and switches, which do not. A parameter's value is the next
argument, or is attached to it. The arguments are taken one by one. A parameter whose value stands by
itself is only settled when another parameter or switch comes up, or at the end; an argument that is
neither of these nor an awaited value is an error at once, whatever is still to be settled.
-/

namespace WorldMap

inductive Parameter
  | width
  | height
  | scale
  | seed
  | threads
  | config
  | tileSize
  | output
  deriving DecidableEq, Repr

namespace Parameter

def name : Parameter → String
  | width => "width"
  | height => "height"
  | scale => "scale"
  | seed => "seed"
  | threads => "threads"
  | config => "config"
  | tileSize => "tile-size"
  | output => "output"

def placeholder : Parameter → String
  | width => "WIDTH"
  | height => "HEIGHT"
  | scale => "SCALE"
  | seed => "SEED"
  | threads => "THREADS"
  | config => "CONFIG"
  | tileSize => "TILE_SIZE"
  | output => "OUTPUT"

def all : List Parameter := [width, height, scale, seed, threads, config, tileSize, output]

end Parameter

inductive Switch
  | hideContours
  | quiet
  | help
  deriving DecidableEq, Repr

namespace Switch

def name : Switch → String
  | hideContours => "hide-contours"
  | quiet => "quiet"
  | help => "help"

def all : List Switch := [hideContours, quiet, help]

end Switch

inductive Argument
  | parameter (p : Parameter)
  | switch (s : Switch)
  deriving DecidableEq, Repr

namespace Argument

def text : Argument → String
  | parameter p => s!"--{p.name} <{p.placeholder}>"
  | switch s => s!"--{s.name}"

def named? (name : String) : Option Argument :=
  ((Parameter.all.find? (·.name == name)).map parameter).or
    ((Switch.all.find? (·.name == name)).map switch)

end Argument

inductive ValueProblem
  | number (e : NumberError)
  | outOfRange (n : Int)
  deriving DecidableEq, Repr

namespace ValueProblem

def text : ValueProblem → String
  | number e => e.text
  | outOfRange n => s!"{n} is not in 0..=4294967295"

end ValueProblem

/-- Why the arguments make no options. Asking for help is a reason, too. -/
inductive UsageError
  | helpWanted
  | unexpectedArgument (argument : String)
  | unexpectedValue (s : Switch) (value : String)
  | missingValue (p : Parameter)
  | repeated (a : Argument)
  | invalidValue (p : Parameter) (value : String) (problem : ValueProblem)
  deriving DecidableEq, Repr

namespace UsageError

def text : UsageError → String
  | helpWanted => "help is wanted"
  | unexpectedArgument a => s!"unexpected argument '{plainText a}' found"
  | unexpectedValue s v =>
    s!"unexpected value '{plainText v}' for '{(Argument.switch s).text}' found; no more were expected"
  | missingValue p =>
    s!"a value is required for '{(Argument.parameter p).text}' but none was supplied"
  | repeated a => s!"the argument '{a.text}' cannot be used multiple times"
  | invalidValue p v problem =>
    s!"invalid value '{plainText v}' for '{(Argument.parameter p).text}': {problem.text}"

end UsageError

structure Options where
  width : UInt32
  height : UInt32
  scale : UInt32
  seed : UInt64
  threads : Option UInt64
  config : Option String
  tileSize : Option UInt32
  hideContours : Bool
  quiet : Bool
  output : String
  deriving DecidableEq, Repr

namespace Options

def standard : Options := ⟨512, 512, 1, 0, none, none, none, false, false, "preview.png"⟩

/-- A value of 32 bits. It is read as a signed number of 64 bits first. -/
def read32 (p : Parameter) (value : String) : Except UsageError UInt32 :=
  match readSigned64 value.toList with
  | .error e => .error (.invalidValue p value (.number e))
  | .ok n =>
    if 0 ≤ n ∧ n ≤ maxWord32 then .ok (UInt32.ofNat n.toNat)
    else .error (.invalidValue p value (.outOfRange n))

def read64 (p : Parameter) (value : String) : Except UsageError UInt64 :=
  match readUnsigned 10 maxWord64 value.toList with
  | .error e => .error (.invalidValue p value (.number e))
  | .ok n => .ok (UInt64.ofNat n)

def readPath (p : Parameter) (value : String) : Except UsageError String :=
  if value.isEmpty then .error (.missingValue p) else .ok value

def set (o : Options) (p : Parameter) (value : String) : Except UsageError Options :=
  match p with
  | .width => do return { o with width := ← read32 p value }
  | .height => do return { o with height := ← read32 p value }
  | .scale => do return { o with scale := ← read32 p value }
  | .seed => do return { o with seed := ← read64 p value }
  | .threads => do return { o with threads := some (← read64 p value) }
  | .config => do return { o with config := some (← readPath p value) }
  | .tileSize => do return { o with tileSize := some (← read32 p value) }
  | .output => do return { o with output := ← readPath p value }

def raise (o : Options) : Switch → Except UsageError Options
  | .hideContours => .ok { o with hideContours := true }
  | .quiet => .ok { o with quiet := true }
  | .help => .error .helpWanted

end Options

/-- The options read so far, the arguments that have been settled, and the parameter that has not been,
with its value if that has come. -/
structure ArgumentReader where
  options : Options
  settled : List Argument
  pending : Option (Parameter × Option String)

namespace ArgumentReader

def start : ArgumentReader := ⟨Options.standard, [], none⟩

def register (r : ArgumentReader) (a : Argument) : Except UsageError ArgumentReader :=
  if a ∈ r.settled then .error (.repeated a) else .ok { r with settled := a :: r.settled }

def settle (r : ArgumentReader) (p : Parameter) (value : String) :
    Except UsageError ArgumentReader := do
  let r ← r.register (.parameter p)
  return { r with options := ← r.options.set p value }

def close (r : ArgumentReader) : Except UsageError ArgumentReader :=
  match r.pending with
  | none => .ok r
  | some (p, none) => .error (.missingValue p)
  | some (p, some value) => ({ r with pending := none }).settle p value

def takeParameter (r : ArgumentReader) (p : Parameter) (attached : Option String) :
    Except UsageError ArgumentReader := do
  let r ← r.close
  match attached with
  | some value => r.settle p value
  | none => return { r with pending := some (p, none) }

def takeSwitch (r : ArgumentReader) (s : Switch) : Except UsageError ArgumentReader := do
  let r ← (← r.close).register (.switch s)
  return { r with options := ← r.options.raise s }

/-- An argument that starts with two dashes. A value is attached with an equals sign. -/
def takeNamed (r : ArgumentReader) (cs : List Char) : Except UsageError ArgumentReader :=
  let name := String.ofList (cs.takeWhile (· ≠ '='))
  let attached := match cs.dropWhile (· ≠ '=') with
    | [] => none
    | _ :: value => some (String.ofList value)
  match Argument.named? name, attached with
  | none, _ => .error (.unexpectedArgument s!"--{name}")
  | some (.parameter p), _ => r.takeParameter p attached
  | some (.switch s), none => r.takeSwitch s
  | some (.switch s), some value => .error (.unexpectedValue s value)

/-- An argument that starts with one dash. Help has a short name, and so has the output, to which a value
is attached directly or with an equals sign. -/
def takeShort (r : ArgumentReader) (c : Char) (cs : List Char) : Except UsageError ArgumentReader :=
  if c = 'h' then r.takeSwitch .help
  else if c ≠ 'o' then .error (.unexpectedArgument (String.ofList ['-', c]))
  else match cs with
    | [] => r.takeParameter .output none
    | '=' :: value => r.takeParameter .output (some (String.ofList value))
    | value => r.takeParameter .output (some (String.ofList value))

/-- An argument without a dash is the value that the open parameter awaits. -/
def takeValue (r : ArgumentReader) (argument : String) : Except UsageError ArgumentReader :=
  match r.pending with
  | some (p, none) => .ok { r with pending := some (p, some argument) }
  | _ => .error (.unexpectedArgument argument)

def take (r : ArgumentReader) (argument : String) : Except UsageError ArgumentReader :=
  match argument.toList with
  | '-' :: '-' :: cs => r.takeNamed cs
  | '-' :: c :: cs => r.takeShort c cs
  | _ => r.takeValue argument

/-- Takes all arguments. After two dashes alone no argument has a meaning. -/
def takeAll (r : ArgumentReader) : List String → Except UsageError ArgumentReader
  | [] => r.close
  | ["--"] => r.close
  | "--" :: argument :: _ => .error (.unexpectedArgument argument)
  | argument :: rest => do (← r.take argument).takeAll rest

end ArgumentReader

def Options.ofArguments (arguments : List String) : Except UsageError Options :=
  (ArgumentReader.start.takeAll arguments).map (·.options)

end WorldMap
