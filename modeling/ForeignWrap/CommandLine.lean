import ForeignWrap.Generation.Files

/-!
# The command line

The program is told the default type, the files to read, and perhaps the file to write. Options and
inputs may come in any order; of an option that comes twice the last one counts.

## Main definitions

* `ForeignWrap.CommandLine.Command`: what arguments ask for.
* `ForeignWrap.CommandLine.parse`: what arguments ask for, if they are right.
* `ForeignWrap.CommandLine.run`: what the program does, and how it ends.
-/

namespace ForeignWrap.CommandLine

/-- What generation is told. -/
structure Options where
  defaultType : String
  output : Option String
  inputs : List String
deriving DecidableEq, Repr

/-- What arguments ask for. -/
inductive Command where
  | help
  | generate (options : Options)
deriving DecidableEq, Repr

/-- Why arguments are wrong. -/
inductive Error where
  | typeNeeded
  | pathNeeded
  | unknownFlag (flag : String)
  | missingType
  | noInputs
deriving DecidableEq, Repr

/-- The wording of an error. -/
def Error.message : Error → String
  | .typeNeeded => "-t needs a type"
  | .pathNeeded => "-o needs a path"
  | .unknownFlag flag => "unknown flag " ++ flag
  | .missingType => "missing -t TYPE"
  | .noInputs => "no input files"

/-- How the program is used. -/
def usage : String :=
  String.intercalate "\n" [
    "Usage: genwrap -t TYPE [-o OUTPUT] FILE.rs [FILE2.rs ...]",
    "",
    "Options:",
    "  -t TYPE      Default type for results and untyped arguments (required)",
    "  -o OUTPUT    Output file (default: FILE.wrap.rs next to the first input)",
    "  -h, --help   Print this message"]

/-! ## Arguments -/

/-- What has been read of the arguments. -/
structure Seen where
  defaultType : Option String := none
  output : Option String := none
  inputs : List String := []
deriving DecidableEq, Repr

/-- What was read, as options, if nothing is missing. -/
def Seen.finish (seen : Seen) : Except Error Command :=
  match seen.defaultType with
  | none => .error .missingType
  | some defaultType =>
    if seen.inputs = [] then .error .noInputs
    else .ok (.generate ⟨defaultType, seen.output, seen.inputs⟩)

/-- Whether an argument is neither an option nor an input. A dash on its own is an input. -/
def isFlag (arg : String) : Bool :=
  Text.beginsWith "-" arg && arg != "-"

/-- What arguments ask for, after what has been read before them. -/
def parseFrom (seen : Seen) : List String → Except Error Command
  | [] => seen.finish
  | "-h" :: _ | "--help" :: _ => .ok .help
  | ["-t"] => .error .typeNeeded
  | ["-o"] => .error .pathNeeded
  | "-t" :: type :: rest => parseFrom { seen with defaultType := some type } rest
  | "-o" :: path :: rest => parseFrom { seen with output := some path } rest
  | arg :: rest =>
    if isFlag arg then .error (.unknownFlag arg)
    else parseFrom { seen with inputs := seen.inputs ++ [arg] } rest

/-- What arguments ask for. -/
def parse (args : List String) : Except Error Command :=
  parseFrom {} args

/-! ## Running -/

/-- How the program ends: its status and what it prints. What it tells of its work comes before. -/
structure Outcome where
  status : Nat
  out : List String := []
  err : List String := []
deriving DecidableEq, Repr

variable {m : Type → Type} [Monad m] [Files m]

/-- Does what the options say. -/
def generate (options : Options) : ExceptT Generation.Error m Unit := do
  let config : Config := { defaultType := options.defaultType }
  match options.output with
  | some output => Generation.runTo config options.inputs output
  | none => let _ ← Generation.run config options.inputs

/-- The lines that report an error. Code that could not be formatted comes before its error. -/
def report (e : Generation.Error) : List String :=
  e.rawCode?.toList ++ [e.message]

/-- The status of an end with an error. Code without a layout should not have come this far. -/
def errorStatus : Generation.Error → Nat
  | .layout _ => 101
  | _ => 1

/-- What the program does, and how it ends. -/
def run (args : List String) : m Outcome := do
  match parse args with
  | .error e => return { status := 2, err := ["error: " ++ e.message, usage] }
  | .ok .help => return { status := 0, out := [usage] }
  | .ok (.generate options) =>
    match ← (generate options).run with
    | .ok _ => return { status := 0 }
    | .error e => return { status := errorStatus e, err := report e }

end ForeignWrap.CommandLine
