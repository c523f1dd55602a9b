import ForeignWrap.CommandLine
import ForeignWrap.Log.Filter
import ForeignWrap.Text.Utf8

/-!
# The program

The command line on the file system of the machine. Events are told on the error output, if the
environment has a filter for them.

## Main definitions

* `ForeignWrap.Session`: work on the file system of the machine.
* `main`: the program.
-/

namespace ForeignWrap

/-- Work on the file system of the machine, with the filter for events if there is one. -/
abbrev Session :=
  ReaderT (Option Log.Filter) IO

namespace Session

/-- Whether a code of the system is this one. Some of its functions negate their codes. -/
def isCode (known code : UInt32) : Bool :=
  code == known || 0 - code == known

/-- A failure of the system as one of a file. -/
def fileError : IO.Error → FileError
  | .noFileOrDirectory _ _ _ => .noSuchFile
  | .inappropriateType _ code _ => if isCode 21 code then .isDirectory else .notDirectory
  | e => .other (toString e)

/-- The text of a file. -/
def read (path : String) : IO (Except FileError String) := do
  match ← (IO.FS.readBinFile path).toBaseIO with
  | .error e => return .error (fileError e)
  | .ok bytes =>
    match Text.decodeUtf8 (bytes.toList.map UInt8.toNat) with
    | .ok text => return .ok text
    | .error _ => return .error .notText

/-- Writes the text of a file. -/
def write (path text : String) : IO (Except FileError Unit) := do
  match ← (IO.FS.writeFile path text).toBaseIO with
  | .ok _ => return .ok ()
  | .error e => return .error (fileError e)

instance : Files Session where
  read path := fun _ => read path
  write path text := fun _ => write path text
  tell events := fun filter? =>
    match filter? with
    | none => pure ()
    | some filter => (filter.lines events).forM (IO.eprintln ·)

/-- What the program does, told by the filter of the environment. What is wrong with the filter
comes before all else. -/
def run (args : List String) : IO CommandLine.Outcome := do
  let filter? := (← IO.getEnv "RUST_LOG").map Log.Filter.ofText
  if let some filter := filter? then filter.warnings.forM (IO.eprintln ·)
  let session : Session CommandLine.Outcome := CommandLine.run args
  session filter?

end Session

end ForeignWrap

/-- Does what the arguments ask for. -/
def main (args : List String) : IO UInt32 := do
  let outcome ← ForeignWrap.Session.run args
  outcome.out.forM (IO.println ·)
  outcome.err.forM (IO.eprintln ·)
  return outcome.status.toUInt32
