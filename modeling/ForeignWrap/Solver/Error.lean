import ForeignWrap.Text.Utf8

/-!
# Errors of the solver

What can go wrong between the library and the solver. A text that is passed to the solver ends at
its first NUL, so it must not hold one.

## Main definitions

* `ForeignWrap.Solver.Error`: the causes.
* `ForeignWrap.Solver.Error.message`: their wording.
* `ForeignWrap.Solver.checkName`, `ForeignWrap.Solver.readText`: texts on their way to and from the
  solver.
-/

namespace ForeignWrap.Solver

/-- What can go wrong between the library and the solver. -/
inductive Error where
  /-- The solver reports an error of its own. -/
  | solver (code : Nat) (text : String)
  /-- A name has a NUL at a byte. -/
  | nul (position : Nat)
  /-- The solver answers with something that is no text. -/
  | notText (cause : Text.Utf8Error)
  /-- The solver answers with nothing. -/
  | nullHandle (what : String)
  /-- A value is of another kind than it is asked for. -/
  | unexpectedKind (expected found : String)
deriving DecidableEq, Repr

/-- Where a text has its first NUL, in words. -/
def nulMessage (position : Nat) : String :=
  "nul byte found in provided data at position: " ++ toString position

namespace Error

/-- The wording of the error beneath, if there is one. -/
def cause? : Error → Option String
  | .nul position => some (nulMessage position)
  | .notText cause => some cause.message
  | _ => none

/-- The wording of an error. -/
def message : Error → String
  | .solver code text => "Z3 error " ++ toString code ++ ": " ++ text
  | .nul position => "name contains an interior NUL byte: " ++ nulMessage position
  | .notText cause => "Z3 returned invalid UTF-8: " ++ cause.message
  | .nullHandle what => "Z3 returned a null " ++ what
  | .unexpectedKind expected found =>
    "expected a " ++ expected ++ " expression, found " ++ found

end Error

/-- The bytes of a name that is passed to the solver. -/
def checkName (name : String) : Except Error (List Nat) :=
  let bytes := Text.encodeUtf8 name
  match bytes.findIdx? (· == 0) with
  | some position => .error (.nul position)
  | none => .ok bytes

/-- The text of bytes that the solver answers with. -/
def readText (bytes : List Nat) : Except Error String :=
  (Text.decodeUtf8 bytes).mapError .notText

end ForeignWrap.Solver
