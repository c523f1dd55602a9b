/-!
# Events

What is told of the work, one event a line: how much it matters, whose it is, what happened, and the
fields that say with what.

## Main definitions

* `ForeignWrap.Log.Level`: how much an event matters.
* `ForeignWrap.Log.Event`: what can be told.
* `ForeignWrap.Log.line`: the line that tells an event.
-/

namespace ForeignWrap.Log

/-- How much an event matters. -/
inductive Level where
  | error
  | warn
  | info
  | debug
  | trace
deriving DecidableEq, Repr

/-- The place of a level: the less it matters, the higher. -/
def Level.rank : Level → Nat
  | .error => 1
  | .warn => 2
  | .info => 3
  | .debug => 4
  | .trace => 5

/-- A level as it stands before its events. -/
def Level.name : Level → String
  | .error => "ERROR"
  | .warn => "WARN"
  | .info => "INFO"
  | .debug => "DEBUG"
  | .trace => "TRACE"

/-- What can be told. -/
inductive Event where
  /-- A directive is about to be read. -/
  | directive (label : String)
  /-- All methods are there. -/
  | assembled (methods files : Nat)
  /-- The generated code has been written. -/
  | wrote (output : String)
deriving DecidableEq, Repr

namespace Event

/-- How much an event matters. -/
def level : Event → Level
  | .directive _ | .assembled _ _ => .debug
  | .wrote _ => .info

/-- What happened. -/
def message : Event → String
  | .directive _ => "directive"
  | .assembled _ _ => "assembled unit"
  | .wrote _ => "wrote wrappers"

/-- What it happened with, by name. -/
def fields : Event → List (String × String)
  | .directive label => [("label", label)]
  | .assembled methods files => [("methods", toString methods), ("files", toString files)]
  | .wrote output => [("output", output)]

/-- Whether an event has a field of this name. What happened is one too. -/
def hasField (event : Event) (name : String) : Bool :=
  name == "message" || event.fields.any (·.1 == name)

end Event

/-- The target that all events belong to. -/
def target : String :=
  "z3_genwrap::driver"

/-- The line that tells an event. -/
def line (event : Event) : String :=
  String.join
    (event.level.name :: " " :: target :: ": " :: event.message ::
      event.fields.map fun (name, value) => " " ++ name ++ "=" ++ value)

end ForeignWrap.Log
