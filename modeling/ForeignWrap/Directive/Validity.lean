import ForeignWrap.Directive.Basic
import ForeignWrap.Directive.Error

/-!
# Valid directives

A directive is valid if its method and its call fit together: it has a receiver, its arguments have
different names, only the last one is a sequence, and the call refers to arguments that there are.
A sequence is given to the call last, and nothing else is marked as one.

## Main definitions

* `ForeignWrap.Directive.validate`: the first rule that a directive breaks.
-/

namespace ForeignWrap.Directive

/-- The rules for host arguments, given the names before them. -/
def checkHostArgs (earlier : List String) : List HostArg → Except Error Unit
  | [] => .ok ()
  | arg :: rest =>
    if arg.variadic && !rest.isEmpty then .error (.misplacedVariadic arg.name)
    else if arg.name ∈ earlier then .error (.duplicateArgument arg.name)
    else checkHostArgs (arg.name :: earlier) rest

/-- The rules for an argument of the call. `names` are those of the host arguments, and `sequence`
is the name of the variadic one. -/
def checkForeignArg (names : List String) (sequence : Option String) (isLast : Bool) :
    ForeignArg → Except Error Unit
  | .literal _ => .ok ()
  | .reference name _ =>
    let (base, marked) := splitMarker name
    if base ∉ names then .error (.unknownArgument name)
    else if marked != decide (sequence = some base) then .error (.misplacedVariadic base)
    else if marked && !isLast then .error (.variadicNotLast base)
    else .ok ()

/-- The rules for the arguments of the call, each on its own. -/
def checkForeignArgs (names : List String) (sequence : Option String) :
    List ForeignArg → Except Error Unit
  | [] => .ok ()
  | arg :: rest => do
    checkForeignArg names sequence rest.isEmpty arg
    checkForeignArgs names sequence rest

/-- Whether an argument of the call refers to the host argument `name`. -/
def ForeignArg.refersTo (name : String) : ForeignArg → Bool
  | .literal _ => false
  | .reference marked _ => (splitMarker marked).1 = name

/-- The rule that the call is given the sequence. -/
def checkSequenceUsed (sequence : Option String) (args : List ForeignArg) : Except Error Unit :=
  match sequence with
  | none => .ok ()
  | some name => if args.any (·.refersTo name) then .ok () else .error (.variadicNotLast name)

/-- The first rule that a directive breaks. -/
def validate (d : Directive) : Except Error Unit :=
  match d.hostArgs with
  | [] => .error .noReceiver
  | receiver :: _ => do
    if receiver.variadic then throw (.misplacedVariadic receiver.name)
    checkHostArgs [] d.hostArgs
    let sequence := d.variadicArg?.map (·.name)
    checkForeignArgs (d.hostArgs.map (·.name)) sequence d.foreignArgs
    checkSequenceUsed sequence d.foreignArgs

end ForeignWrap.Directive
