import ForeignWrap.Syntax.Generics

/-!
# Reading paths and bounds

## Main definitions

* `ForeignWrap.Syntax.Grammar.path`: a path whose parts may have arguments.
* `ForeignWrap.Syntax.Grammar.qualifiedPath`: a path that a type may begin.
* `ForeignWrap.Syntax.Grammar.readBound`, `ForeignWrap.Syntax.Grammar.bounds`: bounds on a type.
-/

namespace ForeignWrap.Syntax

open Code (Delimiter Token)
open Syntax.Parser

/-- Whether a generic argument is a lifetime. -/
def Tree.isLifetimeArg : Tree .genericArg → Bool
  | .lifetimeArg _ => true
  | _ => false

namespace Grammar

variable (g : Grammar)

/-! ## Generic arguments -/

/-- The name and the arguments of a path of one part, after which a binding may follow. -/
def bindingName? : Ty → Option (String × Tree (.maybe (.many .genericArg)))
  | .pathType (.path .absent _ false segments) =>
    match segments.toList with
    | [.segment name] => some (name, .absent)
    | [.segmentOf name _ args] => some (name, .present args)
    | _ => none
  | _ => none

/-- A generic argument. -/
def genericArg : Parser (Tree .genericArg) := do
  let tokens ← ahead
  if atLifetime tokens && !atOp "+" (skip tokens) then return .lifetimeArg (← lifetime)
  if atLiteral tokens || atGroup .brace tokens then return .valueArg (← valueArg g)
  let type ← g.type true
  match bindingName? type with
  | none => return .typeArg type
  | some (name, args) =>
    if ← op? "=" then
      let tokens ← ahead
      if atLiteral tokens || atGroup .brace tokens then
        return .valueBinding name args (← valueArg g)
      return .typeBinding name args (← g.type true)
    if ← op? ":" then
      let bounds ←
        chain (fun tokens => atOp "," tokens || atOp ">" tokens) "+" (g.bound .declared)
      return .boundedArg name args (.ofList bounds)
    return .typeArg type

/-- Generic arguments between angle brackets. -/
def angledArgs : Parser (List (Tree .genericArg)) :=
  angled Tree.isLifetimeArg (genericArg g)

/-! ## Paths -/

/-- A part of a path. In an expression arguments need `::` before them. -/
def segment (inExpr : Bool) : Parser (Tree .segment) := do
  let tokens ← ahead
  if atWord "super" tokens || atWord "self" tokens || atWord "crate" tokens ||
      atWord "try" tokens then
    return .segment (← anyWord)
  let name ← if atWord "Self" tokens then anyWord else name
  let tokens ← ahead
  if (!inExpr && atOp "<" tokens && !atOp "<=" tokens && !atOp "<<=" tokens) ||
      (atOp "::" tokens && atOp "<" (skip (skip tokens))) then
    let turbofish ← op? "::"
    return .segmentOf name turbofish (.ofList (← angledArgs g))
  return .segment name

/-- The parts of a path after the first. -/
def moreSegments (inExpr : Bool) : Parser (List (Tree .segment)) :=
  collect do
    let tokens ← ahead
    if !atOp "::" tokens || atGroup .parenthesis (skip (skip tokens)) then return none
    op "::"
    return some (← segment g inExpr)

/-- Whether a path begins with `::`, and its parts. -/
def pathParts (inExpr : Bool) : Parser (Bool × List (Tree .segment)) := do
  let rooted ← op? "::"
  let first ← segment g inExpr
  return (rooted, first :: (← moreSegments g inExpr))

/-- A path. -/
def path (inExpr : Bool) : Parser (Tree .path) := do
  let (rooted, segments) ← pathParts g inExpr
  return .path .absent 0 rooted (.ofList segments)

/-- The trait that a qualified path sees its type as, if it names one. -/
def seenAs : Parser (Bool × List (Tree .segment)) := do
  if ← keyword? "as" then pathParts g false else return (true, [])

/-- A path, which may begin with a type between angle brackets. -/
def qualifiedPath (inExpr : Bool) : Parser (Tree .path) := do
  if !atOp "<" (← ahead) then return ← path g inExpr
  op "<"
  let self ← g.type true
  let (rooted, trait) ← seenAs g
  op ">"
  op "::"
  let first ← segment g inExpr
  let more ← collect do
    if !(← op? "::") then return none
    return some (← segment g inExpr)
  return .path (.present self) trait.length rooted (.ofList (trait ++ first :: more))

/-! ## Bounds -/

/-- A type after an arrow, if there is one. Further bounds do not belong to it. -/
def arrowType? (plus : Bool) : Parser (Option Ty) := do
  if ← op? "->" then return some (← g.type plus) else return none

/-- The last part of a trait's path may have its arguments between parentheses. -/
def withCallArgs (segments : List (Tree .segment)) : Parser (List (Tree .segment)) := do
  let tokens ← ahead
  if !atGroup .parenthesis tokens &&
      !(atOp "::" tokens && atGroup .parenthesis (skip (skip tokens))) then
    return segments
  match segments.getLast? with
  | some (.segment name) | some (.segmentOf name _ .nil) =>
    let _ ← capture (op? "::")
    let inputs ← inside .parenthesis (commaList (g.type true))
    let output ← arrowType? g false
    return segments.dropLast ++ [.segmentCall name (.ofList inputs) (.ofOption output)]
  | _ => return segments

/-- The mark of a trait that is `const`, in brackets if it is so only under a condition. It answers
how it is written. -/
def constMark? : Parser (Option String) := do
  let tokens ← ahead
  if atGroup .bracket tokens then
    inside .bracket (keyword "const")
    return some "[const]"
  else if ← keyword? "const" then return some "const"
  else return none

/-- A trait as a bound, with what may stand before its path. There is no tree for one that is
`const`. -/
def traitBound? (place : BoundPlace) (parenthesized : Bool) : Parser (Option (Tree .bound)) := do
  let early ← forParams? g
  let mark ← constMark?
  if let some mark := mark then
    if place = .object then broken (code mark ++ " is not allowed here")
  let isMaybe ← op? "?"
  let params ← if early.toOption.isNone && isMaybe then forParams? g else pure early
  let (rooted, segments) ← pathParts g false
  let segments ← withCallArgs g segments
  if params.toOption.isSome && isMaybe then
    broken (code "for<...>" ++ " binder not allowed with " ++ code "?" ++
      " trait polarity modifier")
  if mark.isSome then return none
  return some (.traitBound parenthesized isMaybe params
    (.path .absent 0 rooted (.ofList segments)))

/-- A name that a type captures: a lifetime, which keeps its mark, or that of a type or value. -/
def capturedName : Parser String := do
  let tokens ← ahead
  let name ←
    if atLifetime tokens then do pure ("'" ++ (← lifetime))
    else if atName tokens || atWord "Self" tokens then anyWord
    else expected ["lifetime", "identifier", code ">"]
  let tokens ← ahead
  if !atOp "," tokens && !atOp ">" tokens then expected [code ",", code ">"]
  return name

/-- The names that a type captures: lifetimes, types and values alike. -/
def capturedNames : Parser (List String) :=
  angled (fun name => name.toList.head? = some '\'') capturedName

/-- A bound: a lifetime, the names that a type captures, or a trait. -/
def readBound (place : BoundPlace) : Parser (Tree .bound) := do
  let tokens ← ahead
  if atLifetime tokens then return .lifetimeBound (← lifetime)
  else if ← keyword? "use" then
    let names ← capturedNames
    if place = .hidden then return .captureBound names
    else broken (code "use<...>" ++ " precise capturing syntax is not allowed here")
  else
    orRaw .rawBound do
      if atGroup .parenthesis tokens then inside .parenthesis (traitBound? g place true)
      else traitBound? g place false

/-- Whether a bound may come first. -/
def atBound (place : BoundPlace) (tokens : List Token) : Bool :=
  atAnyWord tokens || atOp "::" tokens || atOp "?" tokens || atLifetime tokens ||
    atGroup .parenthesis tokens || (place ≠ .object && atGroup .bracket tokens)

/-- Bounds with plus signs between them, or one where `plus` forbids more. A plus sign may follow
the last one. -/
def bounds (place : BoundPlace) (plus : Bool) : Parser (List (Tree .bound)) := do
  let first ← readBound g place
  let more ← collect do
    if !plus || !atOp "+" (← ahead) then return none
    op "+"
    if atBound place (← ahead) then return some (← readBound g place) else return none
  return first :: more

end Grammar

/-- Whether a bound is a trait. -/
def Tree.isTrait : Tree .bound → Bool
  | .traitBound .. | .rawBound _ => true
  | _ => false

end ForeignWrap.Syntax
