import ForeignWrap.Directive.Token
import ForeignWrap.Directive.Validity

/-!
# Reading directives

A directive line reads `keyword name[:result] [arg[:type] ...] : function [arg[:cast] ...]`. Where
no separator stands after the name, the arguments of the call are those of the method too: a cast is
then the type of the argument, and code is no argument of the method. A name is split from its type
at the first colon.

## Main definitions

* `ForeignWrap.Directive.ofTokens`: the directive that tokens write.
* `ForeignWrap.Directive.ofLine`: the directive of a line.
-/

namespace ForeignWrap.Directive

/-- A name and its type, or the default type where none is written. -/
def splitTyped (defaultType text : String) : Except Error (String × String) :=
  let (name, type) := (Text.cutAt? ':' text).getD (text, defaultType)
  if name = "" || type = "" then .error (.emptyComponent text) else .ok (name, type)

/-- An argument of the method, its marker taken off. -/
def hostArg (markedName type : String) : HostArg :=
  let (name, variadic) := splitMarker markedName
  ⟨name, type, variadic⟩

/-- The host argument that a token writes. A separator has no place among host arguments, since the
first one ends them. -/
def hostArgOfToken (defaultType : String) (token : Token) : Except Error HostArg :=
  if token.kind.isName then
    (splitTyped defaultType token.text).map fun (name, type) => hostArg name type
  else if token.kind = .literal then .error (.literalInHostList token.text)
  else .error .repeatedSeparator

/-- The argument of the call that a token writes. -/
def foreignArgOfToken (token : Token) : Except Error ForeignArg :=
  match token.kind with
  | .literal => .ok (.literal token.code)
  | .separator => .error .repeatedSeparator
  | .word | .keyword =>
    match Text.cutAt? ':' token.text with
    | none =>
      if token.text = "" then .error (.emptyComponent token.text)
      else .ok (.reference token.text none)
    | some (name, cast) =>
      if name = "" || cast = "" then .error (.emptyComponent token.text)
      else .ok (.reference name (some cast))

/-- The function and the arguments of a call. -/
def callOfTokens : List Token → Except Error (String × List ForeignArg)
  | [] => .error .missingForeignFunction
  | function :: args =>
    if function.kind.isName then (args.mapM foreignArgOfToken).map (function.text, ·)
    else .error .missingForeignFunction

/-- The host argument that an argument of the call implies, if it is not code. -/
def impliedHostArg (defaultType : String) : ForeignArg → Option HostArg
  | .literal _ => none
  | .reference name cast => some (hostArg name (cast.getD defaultType))

/-- Whether a token ends the host arguments. -/
def isSeparator (token : Token) : Bool :=
  token.kind = .separator

/-- The directive that a name, a result and the tokens after them write. Its rules are not checked
yet. -/
def assemble (defaultType name result : String) (tokens : List Token) : Except Error Directive := do
  match tokens.dropWhile (!isSeparator ·) with
  | _ :: call =>
    let hostArgs ← (tokens.takeWhile (!isSeparator ·)).mapM (hostArgOfToken defaultType)
    let (foreignFunction, foreignArgs) ← callOfTokens call
    return {
      name, result, hostArgs, foreignFunction, foreignArgs
      variadic := hostArgs.getLast?.any (·.variadic)
      passthrough := false }
  | [] =>
    let (foreignFunction, foreignArgs) ← callOfTokens tokens
    let hostArgs := foreignArgs.filterMap (impliedHostArg defaultType)
    return {
      name, result, hostArgs, foreignFunction, foreignArgs
      variadic := hostArgs.getLast?.any (·.variadic)
      passthrough := true }

/-- The directive that the tokens of a line write, if it is valid. -/
def ofTokens (config : Config) : List Token → Except Error Directive
  | ⟨.keyword, _, _, _⟩ :: head :: rest => do
    if !head.kind.isName then throw .missingName
    let (name, result) ← splitTyped config.defaultType head.text
    let directive ← assemble config.defaultType name result rest
    validate directive
    return directive
  | [⟨.keyword, _, _, _⟩] => .error .missingName
  | _ => .error .missingKeyword

/-- The directive of a line, if it is valid. -/
def ofLine (config : Config) (line : String) : Except Error Directive := do
  ofTokens config (← tokenize line)

end ForeignWrap.Directive
