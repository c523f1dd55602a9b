import ForeignWrap.Method.Basic

/-!
# Methods from directives

The method that a directive asks for. It belongs to the type of the receiver, and each name and type
of the directive has to be code of its kind.

## Main definitions

* `ForeignWrap.Method.steps`: what the method does, step by step.
* `ForeignWrap.Method.ofCall`: the method, given its receiver and the arguments of its call.
* `ForeignWrap.Method.ofDirective`: the method that a directive asks for.
-/

namespace ForeignWrap.Method

open Code (Token)
open Directive (Error HostArg)
open Call (identifier typeAs)

/-! ## Arguments -/

/-- How an argument is passed. Plain values and what the call casts go by value, and a type that is
already a reference is kept as it is. -/
def passingOf (args : List Call.Arg) (arg : HostArg) : Passing :=
  if arg.variadic then .slice
  else if isPrimitive arg.type || Call.isCast args arg.name || Text.beginsWith "&" arg.type then
    .byValue
  else .byReference

/-- The argument of the method that a host argument asks for. -/
def paramOf (args : List Call.Arg) (arg : HostArg) : Except Error Param := do
  let name ← identifier arg.name
  let type ← typeAs .argumentType arg.type
  return ⟨name, type.tokens, passingOf args arg⟩

/-- Whether an argument has to be kept alive during the call: plain values, contexts and what the
call casts need not be. -/
def isRetained (config : Config) (args : List Call.Arg) (arg : HostArg) : Bool :=
  !isPrimitive arg.type && !config.isContext arg.type && !Call.isCast args arg.name

/-! ## Steps -/

/-- The steps that give the receiver its name and find the context, which is called `ctx`. -/
def contextSteps (config : Config) (receiver : HostArg) (name : String) : List Step :=
  .nameReceiver name ::
    if !config.isContext receiver.type then [.askContext name]
    else if receiver.name = "ctx" then []
    else [.aliasContext name]

/-- The steps that gather the arguments of a call into an array. -/
def arraySteps (handleType : List Token) (fixed : List Call.Arg) (sequence : String)
    (element : Call.Arg) : List Step :=
  .makeArray handleType sequence fixed.length ::
    fixed.zipIdx.map (fun (value, slot) => .fillSlot slot value) ++
    [.fillRest sequence fixed.length element]

/-- The arguments of the call as one array, if the last one is a sequence. -/
def sequence? (args : List Call.Arg) : Option (String × Call.Arg) := do
  let element ← Call.variadic? args
  return (← element.host?, element)

/-- The steps of the method. `hosts` are its arguments with their names, the receiver first. -/
def steps (config : Config) (function : String) (args : List Call.Arg) (receiver : HostArg)
    (receiverName : String) (hosts : List (HostArg × String)) : Except Error (List Step) := do
  let start := contextSteps config receiver receiverName
  match sequence? args with
  | some (sequence, element) =>
    let handleType ← typeAs .handleType config.handleType
    return start ++ arraySteps handleType.tokens (Call.fixed args) sequence element ++
      [.call function .array, .keepArrayAlive]
  | none =>
    let retained := hosts.filter fun (arg, _) => isRetained config args arg
    return start ++ .call function (.each args) :: retained.map fun (_, name) => .keepAlive name

/-! ## Methods -/

/-- Whether a type is a path of which no part has arguments. -/
def isPlainPath : Syntax.Tree .type → Bool
  | .pathType (.path .absent _ _ segments) => segments.toList.all fun
    | .segment _ => true
    | _ => false
  | _ => false

/-- What a method with this result answers with. -/
def answerOf (config : Config) (result : String) (type : Syntax.Written .type) : Answer :=
  if config.isExpr result then .lift
  else if isPlainPath type.tree then .convert type.tokens
  else .convertQualified type.tokens

/-- The method that a directive asks for, given its receiver and the arguments of its call. -/
def ofCall (config : Config) (d : Directive) (args : List Call.Arg) (receiver : HostArg)
    (docs : List Doc) : Except Error Method := do
  let selfType ← typeAs .receiverType (withoutReference receiver.type)
  let name ← identifier d.name
  let result ← typeAs .resultType d.result
  let receiverName ← identifier receiver.name
  let params ← d.params.mapM (paramOf args)
  let function ← identifier d.foreignFunction
  let hosts := (receiver, receiverName) :: d.params.zip (params.map (·.name))
  let steps ← steps config function args receiver receiverName hosts
  return {
    selfType := selfType.tokens
    docs, name, params
    result := result.tokens
    body := .wrap steps (answerOf config d.result result) }

/-- The method that a directive asks for. -/
def ofDirective (config : Config) (d : Directive) (docs : List Doc) : Except Error Method := do
  let args ← Call.bind config d
  match d.receiver? with
  | none => throw .noReceiver
  | some receiver => ofCall config d args receiver docs

/-- The method that a directive line asks for. -/
def ofLine (config : Config) (line : String) (docs : List Doc) : Except Error Method := do
  ofDirective config (← Directive.ofLine config line) docs

end ForeignWrap.Method
