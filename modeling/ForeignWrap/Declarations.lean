import ForeignWrap.CommandLine

/-!
# The declaration files of the library

The library for the solver has one declaration file for each type of values. Their wrappers are
written to a directory of the build, one file for each, up to the first that fails.

## Main definitions

* `ForeignWrap.Declarations.all`: the declaration files and their default types.
* `ForeignWrap.Declarations.build`: writes the wrappers of all of them.
-/

namespace ForeignWrap.Declarations

/-- The declaration files, by name, and the default type of each. -/
def all : List (String × String) :=
  [("boolean", "Bool"), ("int", "Int"), ("string", "String"), ("seq", "Sequence"),
    ("expr", "Expr")]

/-- Where a declaration file is. -/
def input (name : String) : String :=
  "src/ast/" ++ name ++ ".rs"

/-- Where its wrappers are written. -/
def output (directory name : String) : String :=
  FilePath.join directory (name ++ ".wrap.rs")

/-- The line that asks for another build when a declaration file changes. -/
def watchLine (name : String) : String :=
  "cargo:rerun-if-changed=" ++ input name

/-- How a build ends: whether it worked, and what it prints. -/
structure Outcome where
  ok : Bool := true
  out : List String := []
  err : List String := []
deriving DecidableEq, Repr

/-- The lines that report an error. Code that could not be formatted comes before its error, and
code without a layout is told of by itself. -/
def report (name : String) : Generation.Error → List String
  | .layout cause => [cause.message]
  | e => e.rawCode?.toList ++ ["genwrap failed for " ++ input name ++ ": " ++ e.message]

variable {m : Type → Type} [Monad m] [Files m]

/-- Writes the wrappers of some declaration files, up to the first that fails. -/
def buildFrom (directory : String) : List (String × String) → m Outcome
  | [] => return {}
  | (name, defaultType) :: rest => do
    let wrapped := Generation.runTo { defaultType } [input name] (output directory name)
    match ← wrapped.run with
    | .error e => return { ok := false, out := [watchLine name], err := report name e }
    | .ok _ =>
      let later ← buildFrom directory rest
      return { later with out := watchLine name :: later.out }

/-- Writes the wrappers of all declaration files to a directory. -/
def build (directory : String) : m Outcome :=
  buildFrom directory all

end ForeignWrap.Declarations
