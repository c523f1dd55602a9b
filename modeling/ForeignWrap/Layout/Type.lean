import ForeignWrap.Layout.Attribute

/-!
# Layout of paths, bounds and types

## Main definitions

* `ForeignWrap.Layout.Scribe.path`: a path with its arguments.
* `ForeignWrap.Layout.Scribe.writeArgs`: generic arguments.
* `ForeignWrap.Layout.Scribe.writeBound`: a bound.
* `ForeignWrap.Layout.Scribe.writeType`: a type.
-/

namespace ForeignWrap.Layout

open Syntax

/-! ## Small parts -/

/-- A lifetime with its apostrophe. -/
def lifetimeText (name : String) : String :=
  "'" ++ name

/-- A calling convention, if it is given. -/
def abi : Option Abi → Draft
  | none => pure ()
  | some abi => do
    text "extern "
    if let some name := abi.name then
      text name
      text " "

/-- A keyword and the space after it, if it is there. -/
def keywordIf (isThere : Bool) (keyword : String) : Draft := do
  if isThere then text (keyword ++ " ")

/-- A field's name or number. -/
def memberText : Member → String
  | .named name => name
  | .numbered index => toString index

namespace Scribe

variable (s : Scribe)

/-! ## Generic arguments -/

/-- The name of a part of a type, with its own arguments. -/
def boundName (name : String) (args : Syntax.Tree (.maybe (.many .genericArg))) : Draft := do
  text name
  if let some args := args.toOption then s.args .type args.toList

/-- Bounds after a colon, in a flow. -/
def boundsAfterColon (bounds : List (Syntax.Tree .bound)) : Draft :=
  each bounds fun isFirst _ bound => do
    if isFirst then text ": "
    else
      space
      text "+ "
    s.bound bound

/-- A generic argument. -/
def genericArg : Syntax.Tree .genericArg → Draft
  | .lifetimeArg name => text (lifetimeText name)
  | .typeArg type => s.type type
  | .valueArg value => s.expr false value
  | .typeBinding name args type => do
    boundName s name args
    text " = "
    s.type type
  | .valueBinding name args value => do
    boundName s name args
    text " = "
    s.expr false value
  | .boundedArg name args bounds => do
    boundName s name args
    flow indentStep do
      boundsAfterColon s bounds.toList

/-- Whether a generic argument is a lifetime. -/
def isLifetimeArg : Syntax.Tree .genericArg → Bool
  | .lifetimeArg _ => true
  | _ => false

/-- Generic arguments between angle brackets, the lifetimes first. -/
def writeArgs (place : PathPlace) (args : List (Syntax.Tree .genericArg)) : Draft := do
  if !args.isEmpty then
    if place = .value then text "::"
    text "<"
    commaBlock indentStep (args.filter isLifetimeArg ++ args.filter (!isLifetimeArg ·))
      (genericArg s)
    text ">"

/-! ## Generic parameters -/

/-- A generic parameter. -/
def genericParam : Syntax.Tree .genericParam → Draft
  | .lifetimeParam attrs name bounds => do
    s.outerAttributes attrs.toList
    text (lifetimeText name)
    if !bounds.isEmpty then
      text ": "
      sepText " + " bounds fun bound => text (lifetimeText bound)
  | .typeParam attrs name bounds byDefault => do
    s.outerAttributes attrs.toList
    text name
    flow indentStep do
      boundsAfterColon s bounds.toList
      if let some type := byDefault.toOption then
        space
        text "= "
        s.type type
  | .valueParam attrs name type byDefault => do
    s.outerAttributes attrs.toList
    text ("const " ++ name ++ ": ")
    s.type type
    if let some value := byDefault.toOption then
      text " = "
      s.expr false value

/-- The parameters that a `for` introduces. -/
def forParams (params : Syntax.Tree (.maybe (.many .genericParam))) : Draft := do
  if let some params := params.toOption then
    text "for<"
    sepText ", " params.toList (genericParam s)
    text "> "

/-! ## Paths -/

/-- The type after an arrow. -/
def arrow (output : Syntax.Tree (.maybe .type)) : Draft := do
  if let some type := output.toOption then
    text " -> "
    s.type type

/-- A part of a path. -/
def segment (place : PathPlace) : Syntax.Tree .segment → Draft
  | .segment name => text name
  | .segmentOf name _ args => do
    text name
    writeArgs s place args.toList
  | .segmentCall name inputs output => do
    text name
    block indentStep do
      text "("
      mayEnd
      each inputs.toList fun _ isLast type => do
        s.type type
        comma isLast
      outdent
      text ")"
      arrow s output

/-- Parts of a path, each after `::`, but for the first of a path that does not begin with it. -/
def segments (place : PathPlace) (rooted : Bool) (parts : List (Syntax.Tree .segment)) : Draft :=
  each parts fun isFirst _ part => do
    if rooted || !isFirst then text "::"
    segment s place part

/-- A path. -/
def path (place : PathPlace) : Syntax.Tree .path → Draft
  | .path .absent _ rooted parts => segments s place rooted parts.toList
  | .path (.present self) position rooted parts => do
    text "<"
    s.type self
    if 0 < position then
      text " as "
      segments s .type rooted (parts.toList.take position)
    text ">"
    segments s place true (parts.toList.drop position)

/-- A path without the type that qualifies it. -/
def unqualifiedPath (place : PathPlace) : Syntax.Tree .path → Draft
  | .path _ _ rooted parts => segments s place rooted parts.toList

/-! ## Bounds -/

/-- A bound. -/
def writeBound : Syntax.Tree .bound → Draft
  | .traitBound parenthesized isMaybe params trait => do
    if parenthesized then text "("
    if isMaybe then text "?"
    forParams s params
    path s .type trait
    if parenthesized then text ")"
  | .lifetimeBound name => text (lifetimeText name)
  | .captureBound names => do
    text "use<"
    sepText ", " names text
    text ">"
  | .rawBound tokens => noLayout "TypeParamBound" tokens

/-! ## Types -/

/-- An argument of a function type. -/
def typeArg : Syntax.Tree .typeArg → Draft
  | .namedTypeArg attrs name type => do
    s.outerAttributes attrs.toList
    if let some name := name then text (name ++ ": ")
    s.type type
  | .variadicTypeArg attrs name => do
    s.outerAttributes attrs.toList
    if let some name := name then text (name ++ ": ")
    text "..."

/-- A type. -/
def writeType : Ty → Draft
  | .pathType p => path s .type p
  | .referenceType lifetime mutable elem => do
    text "&"
    if let some name := lifetime then text (lifetimeText name ++ " ")
    keywordIf mutable "mut"
    s.type elem
  | .pointerType mutable elem => do
    text (if mutable then "*mut " else "*const ")
    s.type elem
  | .sliceType elem => do
    text "["
    s.type elem
    text "]"
  | .arrayType elem length => do
    text "["
    s.type elem
    text "; "
    s.expr false length
    text "]"
  | .tupleType elems => do
    text "("
    match elems.toList with
    | [elem] =>
      block indentStep do
        mayEnd
        s.type elem
        text ","
        mayEnd
        outdent
    | elems => commaBlock indentStep elems s.type
    text ")"
  | .parenType elem => do
    text "("
    s.type elem
    text ")"
  | .neverType => text "!"
  | .inferType => text "_"
  | .implType bounds => do
    text "impl "
    sepText " + " bounds.toList s.bound
  | .objectType _ bounds => do
    text "dyn "
    sepText " + " bounds.toList s.bound
  | .functionType params isUnsafe convention inputs output => do
    forParams s params
    keywordIf isUnsafe "unsafe"
    abi convention
    text "fn("
    block indentStep do
      mayEnd
      each inputs.toList fun _ isLast arg => do
        typeArg s arg
        if arg.isVariadicArg then mayEnd else comma isLast
      outdent
    text ")"
    arrow s output
  | .macroType call => macroCall call none false
  | .rawType tokens => noLayout "Type" tokens

end Scribe

end ForeignWrap.Layout
