import ForeignWrap.FilePath
import ForeignWrap.Generation.Basic

/-!
# Generation from files

The wrappers of some declaration files are written to one file. All inputs are read and all code is
there before anything is written. What reads and writes is left open, so that the same rules hold of
a file system as a value.

## Main definitions

* `ForeignWrap.Files`: what reads, writes and tells.
* `ForeignWrap.Generation.fromFiles`: the text of the wrappers of some files.
* `ForeignWrap.Generation.run`, `ForeignWrap.Generation.runTo`: the same, written to a file.
-/

namespace ForeignWrap

/-- What reads and writes files, and tells events. -/
class Files (m : Type → Type) where
  read : String → m (Except FileError String)
  write : (path text : String) → m (Except FileError Unit)
  tell : List Log.Event → m Unit

namespace Generation

variable {m : Type → Type} [Monad m] [Files m]

/-- Fails with an error, if there is one. -/
def orFail {α : Type} (result : Except Error α) : ExceptT Error m α :=
  ExceptT.mk (pure result)

/-- The source in a file, named by its path. -/
def load (path : String) : ExceptT Error m Source :=
  ExceptT.mk do
    match ← Files.read path with
    | .ok text => return .ok ⟨path, text⟩
    | .error cause => return .error (.file path cause)

/-- The first input, which has to be a declaration file by its name. -/
def firstInput : List String → Except Error String
  | [] => .error .noInputs
  | first :: _ =>
    if FilePath.isDeclarationFile first.toList then .ok first else .error (.notRustFile first)

/-- The text of the wrappers of some files. -/
def fromFiles (config : Config) (inputs : List String) : ExceptT Error m String := do
  let _ ← orFail (firstInput inputs)
  let sources ← inputs.mapM load
  ExceptT.lift (Files.tell (events config sources))
  orFail (generate config sources)

/-- Writes the wrappers of some files to a file. -/
def runTo (config : Config) (inputs : List String) (output : String) : ExceptT Error m Unit := do
  let code ← fromFiles config inputs
  ExceptT.mk do
    match ← Files.write output code with
    | .ok _ => return .ok ()
    | .error cause => return .error (.file output cause)
  ExceptT.lift (Files.tell [.wrote output])

/-- Where the wrappers of some files are written, unless told otherwise. -/
def outputPath (path : String) : Except Error String :=
  match FilePath.output? path with
  | some output => .ok output
  | none => .error (.notRustFile path)

/-- Writes the wrappers of some files beside the first one, and answers where. -/
def run (config : Config) (inputs : List String) : ExceptT Error m String := do
  let some first := inputs.head? | throw .noInputs
  let output ← orFail (outputPath first)
  runTo config inputs output
  return output

end Generation

end ForeignWrap
