import ForeignWrap.Syntax.Path

/-!
# Reading types

## Main definitions

* `ForeignWrap.Syntax.Grammar.readType`: a type.
-/

namespace ForeignWrap.Syntax.Grammar

open Code (Delimiter Token)
open Syntax.Parser

variable (g : Grammar)

/-! ## Traits as types -/

/-- The bounds of a trait object, at least one of which must be a trait. -/
def objectBounds (plus : Bool) : Parser (List (Tree .bound)) := do
  let bounds ← bounds g .object plus
  if bounds.any Tree.isTrait then return bounds else throw .objectWithoutTrait

/-- The bounds of an `impl` type, at least one of which must be a trait. -/
def implBounds (plus : Bool) : Parser (List (Tree .bound)) := do
  let bounds ← bounds g .hidden plus
  if bounds.any Tree.isTrait then return bounds else throw .implWithoutTrait

/-- Further bounds after the first, each after a plus sign. -/
def plusBounds : Parser (List (Tree .bound)) :=
  collect do
    if !(← op? "+") then return none
    return some (← readBound g .object)

/-- Further bounds after the first, the last of which a plus sign may follow. -/
def looseBounds : Parser (List (Tree .bound)) :=
  collect do
    if !(← op? "+") then return none
    if atBound .object (← ahead) then return some (← readBound g .object) else return none

/-- A type in parentheses as the first of several bounds, if it can be one. -/
def parenthesizedBound? : Ty → Option (Tree .bound)
  | .pathType (.path .absent position rooted segments) =>
    some (.traitBound true false .absent (.path .absent position rooted segments))
  | .objectType false bounds =>
    match bounds.toList with
    | [.traitBound _ isMaybe params path] => some (.traitBound true isMaybe params path)
    | [bound] => some bound
    | _ => none
  | _ => none

/-! ## Parentheses -/

/-- What stands between parentheses where a type is expected. -/
inductive Enclosed where
  | type (type : Ty)
  /-- A bound, after which others may follow. -/
  | bound (bound : Tree .bound)
  /-- One type in parentheses of its own. A plus sign may end it. -/
  | single (type : Ty) (plus : Bool)

/-- Whether a plus sign was taken last. -/
def afterPlus : Parser Bool := do
  match (← get).taken with
  | .sign '+' _ :: _ => return true
  | _ => return false

/-- The content of parentheses: nothing, a trait, a list of types, or one type. -/
def enclosed : Parser Enclosed := do
  let tokens ← ahead
  if tokens.isEmpty then return .type (.tupleType .nil)
  if atLifetime tokens then
    let bounds ← objectBounds g true
    return .type (.parenType (.objectType false (.ofList bounds)))
  if atOp "?" tokens then
    if let some bound := ← traitBound? g .object true then return .bound bound
  let first ← g.type true
  if !atOp "," (← ahead) then return .single first (← afterPlus)
  op ","
  let more ← commaList (g.type true)
  return .type (.tupleType (.ofList (first :: more)))

/-- A type in parentheses, a tuple, or a trait object whose first bound has parentheses. -/
def parenthesizedType (plus : Bool) : Parser Ty := do
  match ← inside .parenthesis (enclosed g) with
  | .type type => return type
  | .bound bound => return .objectType false (.ofList (bound :: (← plusBounds g)))
  | .single type ended =>
    if plus && !ended && atOp "+" (← ahead) then
      if let some bound := parenthesizedBound? type then
        return .objectType false (.ofList (bound :: (← plusBounds g)))
    return .parenType type

/-! ## Functions -/

/-- The calling convention of a function, if it is given. -/
def abi? : Parser (Option Abi) := do
  if ← keyword? "extern" then return some ⟨← string?⟩ else return none

/-- Whether an argument of a function type that comes next is named. Only the first one can be
called `self`. -/
def atTypeArgName (first : Bool) (tokens : List Token) : Bool :=
  (atName tokens || atWord "_" tokens || first && atWord "self" tokens) && atColon (skip tokens)

/-- Whether a receiver that may be changed comes first. -/
def atMutableSelf (tokens : List Token) : Bool :=
  atWord "mut" tokens && atWord "self" (skip tokens)

/-- An argument of a function type. It may be named, and it may stand for any others. There is no
tree for a receiver that may be changed, which only the first one can be. -/
def typeArg (first : Bool) : Parser (Tree .typeArg) := do
  let attrs ← outerAttributes g
  let start ← get
  let tokens ← ahead
  if first && atMutableSelf tokens then
    keyword "mut"
    keyword "self"
    if atColon (← ahead) then
      op ":"
      let _ ← g.type true
    return .namedTypeArg (.ofList attrs) none (.rawType (← keepFrom start))
  let name ←
    if atTypeArgName first tokens then do
      let name ← anyWord
      op ":"
      pure (some name)
    else pure none
  if name ≠ some "self" then
    if ← op? "..." then return .variadicTypeArg (.ofList attrs) name
    if first && atMutableSelf (← ahead) then
      keyword "mut"
      keyword "self"
      return .namedTypeArg (.ofList attrs) none (.rawType (← keepFrom start))
  return .namedTypeArg (.ofList attrs) name (← g.type true)

/-- The arguments of a function type, at most `bound` of them. One that stands for any others is the
last. -/
def typeArgsUpTo : (bound : Nat) → (first : Bool) → Parser (List (Tree .typeArg))
  | 0, _ => return []
  | bound + 1, first => do
    if ← atEnd then return []
    let arg ← typeArg g first
    if arg.isVariadicArg then
      let _ ← op? ","
      return [arg]
    if !(← atEnd) then op ","
    return arg :: (← typeArgsUpTo bound false)

/-- The arguments of a function type between parentheses. -/
def typeArgs : Parser (List (Tree .typeArg)) :=
  inside .parenthesis do
    typeArgsUpTo g ((← ahead).length + 1) true

/-- A function type. -/
def functionType (params : Tree (.maybe (.many .genericParam))) : Parser Ty := do
  let inner ← forParams? g
  let isUnsafe ← keyword? "unsafe"
  let abi ← abi?
  keyword "fn"
  let args ← typeArgs g
  let output ← arrowType? g false
  let params := if params.toOption.isSome then params else inner
  return .functionType params isUnsafe abi (.ofList args) (.ofOption output)

/-! ## Types -/

/-- What may follow the parameters that a `for` has introduced. -/
def afterForParams : List String :=
  ["identifier", code "fn", code "unsafe", code "extern", code "super", code "self",
    code "Self", code "crate"]

/-- What a type may begin with. -/
def typeStarts : List String :=
  [code "for", "parentheses", code "fn", code "unsafe", code "extern", "identifier", code "::",
    code "<", code "dyn", "square brackets", code "*", code "&", code "!", code "impl", code "_",
    "lifetime"]

/-- A type that begins with a path: a macro, a trait object without its mark, or just the path. -/
def pathLikeType (plus : Bool) (params : Tree (.maybe (.many .genericParam))) : Parser Ty := do
  let path ← qualifiedPath g false
  if let .path (.present _) .. := path then return .pathType path
  let tokens ← ahead
  if atBang tokens then
    if let some names := path.names? then return .macroType (← macroCall names)
  if params.toOption.isSome || (plus && atOp "+" tokens) then
    let first := Tree.traitBound false false params path
    let more ← if plus then looseBounds g else pure []
    return .objectType false (.ofList (first :: more))
  return .pathType path

/-- A trait object after its mark. There is no tree for one that a star follows. -/
def objectType (plus : Bool) : Parser Ty :=
  orRaw .rawType do
    keyword "dyn"
    let star ← op? "*"
    let bounds ← objectBounds g plus
    return if star then none else some (.objectType true (.ofList bounds))

/-- A type. Where `plus` is false, a plus sign after it is not part of it. -/
def readType (plus : Bool) : Parser Ty := do
  let params ← forParams? g
  let bound := params.toOption.isSome
  let tokens ← ahead
  let atFunction := atWord "fn" tokens || atWord "unsafe" tokens || atWord "extern" tokens
  if bound && !atFunction && !atPathName tokens then
    expected afterForParams
  if atGroup .parenthesis tokens then parenthesizedType g plus
  else if atFunction then functionType g params
  else if atBuiltin tokens then
    let (_, tokens) ← asWritten builtin
    return .rawType tokens
  else if atPathName tokens || atOp "::" tokens || atOp "<" tokens then
    pathLikeType g plus params
  else if atWord "dyn" tokens then objectType g plus
  else if atGroup .bracket tokens then
    inside .bracket do
      let elem ← g.type true
      if ← op? ";" then return .arrayType elem (← g.expr true)
      return .sliceType elem
  else if ← op? "*" then
    if ← keyword? "const" then return .pointerType false (← g.type false)
    if ← keyword? "mut" then return .pointerType true (← g.type false)
    expected [code "const", code "mut"]
  else if ← op? "&" then
    let lifetime ← lifetime?
    let mutable ← keyword? "mut"
    return .referenceType lifetime mutable (← g.type false)
  else if atOp "!" tokens && !atOp "=" tokens then
    op "!"
    return .neverType
  else if ← keyword? "impl" then
    return .implType (.ofList (← implBounds g plus))
  else if ← keyword? "_" then
    return .inferType
  else if atLifetime tokens then
    return .objectType false (.ofList (← objectBounds g true))
  else
    expected typeStarts

end ForeignWrap.Syntax.Grammar
