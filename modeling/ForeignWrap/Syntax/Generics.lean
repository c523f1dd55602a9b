import ForeignWrap.Syntax.Attribute

/-!
# Reading generic parameters

Parameters stand between angle brackets after the name of an item, and after a `for` before a type
that holds for all of them.

## Main definitions

* `ForeignWrap.Syntax.angled`: things between angle brackets.
* `ForeignWrap.Syntax.Grammar.genericParams`: the parameters of an item.
* `ForeignWrap.Syntax.Grammar.forParams?`: the parameters after `for`.
* `ForeignWrap.Syntax.Grammar.conditions?`: the conditions after `where`.
* `ForeignWrap.Syntax.Grammar.boundsBefore`: bounds up to something else.
-/

namespace ForeignWrap.Syntax

open Code (Delimiter Token)
open Syntax.Parser

/-- Whether a colon comes first that is not doubled. -/
def atColon (tokens : List Token) : Bool :=
  atOp ":" tokens && !atOp "::" tokens

/-- The lifetimes that another must outlive. -/
def lifetimeBounds (stop : List Token → Bool) : Parser (List String) :=
  chain stop "+" lifetime

/-- Whether angle brackets come first that must hold parameters, and are not the beginning of a path
that a type qualifies. -/
def atGenericParams (tokens : List Token) : Bool :=
  let next := skip tokens
  let third := skip next
  atOp "<" tokens &&
    (atOp ">" next || atOp "#" next ||
      ((atLifetime next || atName next) &&
        (atOp ">" third || atOp "," third || atColon third || atOp "=" third)) ||
      atWord "const" next)

/-! ## Angle brackets -/

/-- How one of the things between angle brackets is written, and whether a comma follows it. -/
structure Angled where
  isLifetime : Bool
  tokens : List Token
  comma : Bool

/-- The tokens of one of the things between angle brackets, with its comma. -/
def Angled.withComma (written : Angled) : List Token :=
  written.tokens ++ if written.comma then Code.op "," else []

/-- How things between angle brackets are written: lifetimes come first, whatever their place
was. -/
def lifetimesFirst (items : List Angled) : List Token :=
  let lifetimes := items.filter (·.isLifetime)
  let others := items.filter (!·.isLifetime)
  let start := (lifetimes.flatMap Angled.withComma, lifetimes.getLast?.all (·.comma))
  (others.foldl (fun (tokens, closed) written =>
    (tokens ++ (if closed then [] else Code.op ",") ++ written.withComma, written.comma)) start).1

/-- Things between angle brackets with commas between them. Those that are lifetimes come first in
how they are written. -/
def angled {α : Type} (isLifetime : α → Bool) (item : Parser α) : Parser (List α) := do
  op "<"
  let items ← collect do
    if atOp ">" (← ahead) then return none
    let (a, tokens) ← capture item
    let (comma, _) ← capture do
      if atOp ">" (← ahead) then return false
      op ","
      return true
    return some (a, (⟨isLifetime a, tokens, comma⟩ : Angled))
  write (lifetimesFirst (items.map (·.2)))
  op ">"
  return items.map (·.1)

/-- Whether a parameter is a lifetime. -/
def Tree.isLifetimeParam : Tree .genericParam → Bool
  | .lifetimeParam .. => true
  | _ => false

/-- A path of one name as an expression. -/
def nameExpr (name : String) : Expr :=
  .pathExpr (.path .absent 0 false (.cons (.segment name) .nil))

namespace Grammar

variable (g : Grammar)

/-- Bounds with plus signs between them up to one of the things where they `stop`. -/
def boundsBefore (place : BoundPlace) (stop : List Token → Bool) :
    Parser (List (Tree .bound)) :=
  collect do
    if stop (← ahead) then return none
    let bound ← g.bound place
    if !stop (← ahead) then op "+"
    return some bound

/-- A value as a generic argument: a literal, a name or a block. -/
def valueArg : Parser Expr := do
  let tokens ← ahead
  if atLiteral tokens then return .literal (← literal)
  else if atName tokens then return nameExpr (← name)
  else if atGroup .brace tokens then return .blockExpr none (← attributedBlock g)
  else expected []

/-! ## Parameters -/

/-- Where the bounds of a parameter end. -/
def atParamEnd (tokens : List Token) : Bool :=
  tokens.isEmpty || atOp "," tokens || atOp ">" tokens

/-- A lifetime as a parameter. -/
def lifetimeParam (attrs : List Attribute) : Parser (Tree .genericParam) := do
  let name ← lifetime
  let bounds ← unlessEmpty do
    if ← op? ":" then lifetimeBounds atParamEnd else return []
  return .lifetimeParam (.ofList attrs) name bounds

/-- A type as a parameter. -/
def typeParam (attrs : List Attribute) : Parser (Tree .genericParam) := do
  let name ← name
  let bounds ← unlessEmpty do
    if ← op? ":" then
      chain (fun tokens => atParamEnd tokens || atOp "=" tokens) "+" (g.bound .declared)
    else return []
  let byDefault ← if ← op? "=" then some <$> g.type true else pure none
  return .typeParam (.ofList attrs) name (.ofList bounds) (.ofOption byDefault)

/-- A value as a parameter. -/
def valueParam (attrs : List Attribute) : Parser (Tree .genericParam) := do
  keyword "const"
  let name ← name
  op ":"
  let type ← g.type true
  let byDefault ← if ← op? "=" then some <$> valueArg g else pure none
  return .valueParam (.ofList attrs) name type (.ofOption byDefault)

/-- A parameter of an item, which may be left unnamed. -/
def itemParam : Parser (Tree .genericParam) := do
  let attrs ← outerAttributes g
  let tokens ← ahead
  if atLifetime tokens then lifetimeParam attrs
  else if atName tokens then typeParam g attrs
  else if atWord "const" tokens then valueParam g attrs
  else if ← keyword? "_" then return .typeParam (.ofList attrs) "_" .nil .absent
  else expected ["lifetime", "identifier", code "const"]

/-- A parameter after `for`. -/
def forParam : Parser (Tree .genericParam) := do
  let attrs ← outerAttributes g
  let tokens ← ahead
  if atName tokens then typeParam g attrs
  else if atLifetime tokens then lifetimeParam attrs
  else if atWord "const" tokens then valueParam g attrs
  else expected ["identifier", "lifetime", code "const"]

/-- The parameters of an item, if angle brackets come next. -/
def genericParams : Parser (List (Tree .genericParam)) :=
  unlessEmpty do
    if atOp "<" (← ahead) then angled Tree.isLifetimeParam (itemParam g) else return []

/-- The parameters that a `for` introduces, if one comes next. They keep their order. -/
def forParams? : Parser (Tree (.maybe (.many .genericParam))) := do
  if !(← keyword? "for") then return .absent
  return .present (.ofList (← angled (fun _ => false) (forParam g)))

/-! ## Conditions -/

/-- Where a condition ends. -/
def atConditionEnd (tokens : List Token) : Bool :=
  tokens.isEmpty || atGroup .brace tokens || atOp "," tokens || atOp ";" tokens ||
    atColon tokens || atOp "=" tokens

/-- A condition: bounds on a lifetime or on a type. -/
def condition : Parser (Tree .condition) := do
  let tokens ← ahead
  if atLifetime tokens && atOp ":" (skip tokens) then
    let name ← lifetime
    op ":"
    return .lifetimeCondition name
      (← lifetimeBounds fun tokens => atConditionEnd tokens || atOp ":" tokens)
  let params ← forParams? g
  let type ← g.type true
  op ":"
  return .typeCondition params type (.ofList (← chain atConditionEnd "+" (g.bound .declared)))

/-- The conditions after `where`, if it comes next. -/
def conditions? : Parser (Option (List (Tree .condition))) := do
  if !atWord "where" (← ahead) then return none
  return some (← unlessEmpty do
    keyword "where"
    if atGenericParams (← ahead) then
      broken ("generic parameters on " ++ code "where" ++
        " clauses are reserved for future use")
    chain atConditionEnd "," (condition g))

/-- The conditions after `where`, none if it does not come next. -/
def conditions : Parser (List (Tree .condition)) := do
  return (← conditions? g).getD []

end Grammar

end ForeignWrap.Syntax
