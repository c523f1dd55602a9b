import ForeignWrap.Directive.Reader
import ForeignWrap.Syntax.Reader

/-!
# Arguments of a foreign call

Each argument of a foreign call is code as it stands, or reads one argument of the method. It reads
it through a cast if the directive names one, else through the expression inside if the argument can
be an expression of any kind, else directly.

## Main definitions

* `ForeignWrap.Call.Arg`: an argument with the way it is read.
* `ForeignWrap.Call.bind`: the arguments of the call that a directive asks for.
* `ForeignWrap.Call.Arg.code`: an argument as code.
-/

namespace ForeignWrap.Call

open Code (Token)
open Directive (Error ForeignArg readPart)

/-- How a foreign value is read from a variable. -/
inductive Access where
  /-- The expression inside, and its handle. -/
  | unwrap
  /-- The handle. -/
  | handle
  /-- The variable itself, cast to a type. -/
  | cast (type : List Token)

/-- An argument of a foreign call. -/
inductive Arg where
  /-- Code, as it stands. -/
  | literal (code : List Token)
  /-- The argument `host` of the method. For a sequence, each element is read in this way. -/
  | read (host : String) (access : Access) (variadic : Bool)

/-! ## Arguments as code -/

/-- The call of a method that takes no arguments. -/
def callNoArgs (name : String) : List Token :=
  Code.op "." ++ Code.word name ++ Code.parens []

/-- What is read from a variable. -/
def Access.code (var : String) : Access → List Token
  | .unwrap => Code.word var ++ callNoArgs "ast" ++ callNoArgs "raw"
  | .handle => Code.word var ++ callNoArgs "raw"
  | .cast type => Code.word var ++ Code.word "as" ++ type

namespace Arg

/-- The argument of the method that is read. -/
def host? : Arg → Option String
  | .literal _ => none
  | .read host _ _ => some host

/-- Whether the argument is a sequence. -/
def isVariadic : Arg → Bool
  | .literal _ => false
  | .read _ _ variadic => variadic

/-- An argument as code that reads the variable `var` in place of the argument of the method. -/
def codeOn (var : String) : Arg → List Token
  | .literal code => code
  | .read _ access _ => access.code var

/-- An argument as code. -/
def code : Arg → List Token
  | .literal code => code
  | .read host access _ => access.code host

/-- Whether the argument reads the host argument `name` through a cast. -/
def casts (name : String) : Arg → Bool
  | .read host (.cast _) _ => host = name
  | _ => false

end Arg

/-! ## The arguments of a call -/

/-- The name that a text of a directive says. -/
def identifier (text : String) : Except Error String :=
  readPart .identifier text (Syntax.nameOf text)

/-- The type that a text says. -/
def typeAs (what : Directive.Part) (text : String) : Except Error (Syntax.Written .type) :=
  readPart what text (Syntax.typeOf text)

/-- How an argument of the method is read. -/
def accessOf (config : Config) (host : Directive.HostArg) : Option String → Except Error Access
  | some type => (typeAs .foreignType type).map (.cast ·.tokens)
  | none => .ok (if config.isExpr host.type then .unwrap else .handle)

/-- The argument that a directive asks for. -/
def bindArg (config : Config) (d : Directive) : ForeignArg → Except Error Arg
  | .literal code => (readPart .literalCode code (Syntax.tokensOf code)).map .literal
  | .reference name cast => do
    let some host := d.hostArg? (Directive.splitMarker name).1 | throw (.unknownArgument name)
    let access ← accessOf config host cast
    return .read (← identifier host.name) access host.variadic

/-- The arguments of the call that a directive asks for. -/
def bind (config : Config) (d : Directive) : Except Error (List Arg) :=
  d.foreignArgs.mapM (bindArg config d)

/-- The last argument of a call, if it is a sequence. -/
def variadic? (args : List Arg) : Option Arg :=
  args.getLast?.filter (·.isVariadic)

/-- The arguments of a call without the sequence at the end. -/
def fixed (args : List Arg) : List Arg :=
  if (variadic? args).isSome then args.dropLast else args

/-- Whether some argument reads the host argument `name` through a cast. -/
def isCast (args : List Arg) (name : String) : Bool :=
  args.any (·.casts name)

end ForeignWrap.Call
