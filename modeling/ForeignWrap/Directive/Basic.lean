import ForeignWrap.Text.Cut

/-!
# Directives

A directive asks for one method. It names the method, its result and its arguments, the receiver
first, and the foreign function that the method calls, with what each argument of that call is.

## Main definitions

* `ForeignWrap.Directive`: a request for one method.
* `ForeignWrap.Directive.receiver?`, `ForeignWrap.Directive.params`: the arguments of the method.
* `ForeignWrap.Directive.splitMarker`: a name and whether it is marked as variadic.
-/

namespace ForeignWrap

namespace Directive

/-- An argument of the method. A variadic one is a sequence of its type. -/
structure HostArg where
  name : String
  type : String
  variadic : Bool
deriving DecidableEq, Repr

/-- An argument of the foreign call. -/
inductive ForeignArg where
  /-- Code, as it stands. -/
  | literal (code : String)
  /-- An argument of the method, its marker included, cast to a type if there is one. -/
  | reference (name : String) (cast : Option String)
deriving DecidableEq, Repr

end Directive

/-- A request for one method. -/
structure Directive where
  name : String
  result : String
  /-- The arguments of the method, the receiver first. -/
  hostArgs : List Directive.HostArg
  foreignFunction : String
  /-- The arguments of the foreign call, after the context. -/
  foreignArgs : List Directive.ForeignArg
  /-- Whether the last argument is a sequence. -/
  variadic : Bool
  /-- Whether the arguments of the method were taken from those of the foreign call. -/
  passthrough : Bool
deriving DecidableEq, Repr

namespace Directive

/-- What marks a name as that of a sequence. -/
def variadicMarker : String :=
  "..."

/-- A name without a marker at its end, and whether there was one. -/
def splitMarker (name : String) : String × Bool :=
  match Text.dropEnd? variadicMarker name with
  | some base => (base, true)
  | none => (name, false)

/-- The receiver of the method, if there are host arguments. -/
def receiver? (d : Directive) : Option HostArg :=
  d.hostArgs.head?

/-- The arguments of the method after the receiver. -/
def params (d : Directive) : List HostArg :=
  d.hostArgs.tail

/-- The first host argument of a name. -/
def hostArg? (d : Directive) (name : String) : Option HostArg :=
  d.hostArgs.find? (·.name = name)

/-- The last host argument, if it is a sequence. -/
def variadicArg? (d : Directive) : Option HostArg :=
  d.hostArgs.getLast?.filter (·.variadic)

end Directive

end ForeignWrap
