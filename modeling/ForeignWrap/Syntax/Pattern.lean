import ForeignWrap.Syntax.Number
import ForeignWrap.Syntax.Type

/-!
# Reading patterns

## Main definitions

* `ForeignWrap.Syntax.Grammar.readPat`: a pattern without alternatives.
* `ForeignWrap.Syntax.Grammar.alternativePats`: a pattern with alternatives.
* `ForeignWrap.Syntax.member`: a field's name or number.
-/

namespace ForeignWrap.Syntax

open Code (Delimiter Token)
open Syntax.Parser

/-! ## Fields -/

/-- The number that comes first, without its sign, and whether it has one. -/
def number? : List Token → Option (String × Bool)
  | .literal text :: _ => if isNumber text then some (text, false) else none
  | .sign '-' _ :: .literal text :: _ => if isNumber text then some (text, true) else none
  | _ => none

/-- The number of a field that an integer says. It has no sign and no suffix and fits in 32 bits. -/
def fieldNumber (text : String) (negative : Bool) : Parser Nat := do
  match integer? text with
  | none => broken "expected integer literal"
  | some (value, "") =>
    if negative then broken "invalid digit found in string"
    else if value < UInt32.size then return value
    else broken "number too large to fit in target type"
  | some _ => broken "expected unsuffixed integer"

/-- A field's name or number. A number is written by its decimal digits. -/
def member : Parser Member := do
  let tokens ← ahead
  if atName tokens then return .named (← name)
  match number? tokens with
  | none => expected ["identifier or integer"]
  | some (text, negative) =>
    if (integer? text).isNone then expected ["identifier or integer"]
    let value ← fieldNumber text negative
    let _ ← writtenAs [.literal (toString value)] literal
    return .numbered value

/-- Whether a field is named. -/
def Member.isNamed : Member → Bool
  | .named _ => true
  | .numbered _ => false

/-! ## Ranges -/

/-- The dots of a range. -/
def rangeLimits : Parser RangeLimits := do
  let tokens ← ahead
  if atOp "..=" tokens then
    op "..="
    return .closed
  if atOp ".." tokens && !atOp "..." tokens then
    op ".."
    return .halfOpen
  expected [code (if atOp ".." tokens then "..=" else "..")]

/-- The dots of a range in a pattern, where three dots mean a closed range. -/
def patRangeLimits : Parser RangeLimits := do
  if ← op? "..=" then return .closed
  if atOp "..." (← ahead) then
    writtenAs (Code.op "..=") (op "...")
    return .closed
  if ← op? ".." then return .halfOpen
  expected [code "..=", code "...", code ".."]

namespace Grammar

variable (g : Grammar)

/-- A pattern with alternatives, before the first of which a bar may stand. -/
def alternativePats : Parser Pat := do
  let leading ← op? "|"
  let first ← g.pat
  let more ← collect do
    let tokens ← ahead
    if !atOp "|" tokens || atOp "||" tokens || atOp "|=" tokens then return none
    op "|"
    return some (← g.pat)
  if leading || !more.isEmpty then return .orPat leading (.ofList (first :: more))
  else return first

/-- Whether a range in a pattern has no end here. -/
def atRangeEnd (tokens : List Token) : Bool :=
  tokens.isEmpty || atOp "|" tokens || atOp "=" tokens ||
    (atOp ":" tokens && !atOp "::" tokens) || atOp "," tokens || atOp ";" tokens ||
    atWord "if" tokens

/-- An end of a range in a pattern, if it has one. -/
def rangeBound? : Parser (Option Expr) := do
  let tokens ← ahead
  if atRangeEnd tokens then return none
  if atLiteral tokens then return some (.literal (← literal))
  if atPathName tokens || atOp "::" tokens || atOp "<" tokens then
    return some (.pathExpr (← qualifiedPath g true))
  if ← keyword? "const" then return some (.constBlock (← attributedBlock g))
  expected ["literal", "identifier", code "::", code "<", code "self", code "Self", code "super",
    code "crate", code "const"]

/-- The rest of a range in a pattern, after its start. -/
def rangePat (start : Option Expr) : Parser Pat := do
  let limits ← patRangeLimits
  let stop ← rangeBound? g
  if limits = .closed && stop.isNone then expected ["range upper bound"]
  return .exprPat (.range (.ofOption start) limits (.ofOption stop))

/-- A field in a pattern, after its attributes. There is no tree for a boxed variable. -/
def fieldPat (attrs : List Attribute) : Parser (Tree .fieldPat) := do
  if atWord "box" (← ahead) then
    let (variableName, tokens) ← asWritten do
      keyword "box"
      let _ ← keyword? "ref"
      let _ ← keyword? "mut"
      name
    return .fieldPat (.ofList attrs) (.named variableName) true (.rawPat tokens)
  let byRef ← keyword? "ref"
  let mutable ← keyword? "mut"
  let member ← if byRef || mutable then Member.named <$> name else member
  let colon := atOp ":" (← ahead) && !byRef && !mutable
  match member with
  | .named name =>
    if colon then
      op ":"
      return .fieldPat (.ofList attrs) member false (← alternativePats g)
    return .fieldPat (.ofList attrs) member true (.identPat byRef mutable name .absent)
  | .numbered _ =>
    op ":"
    return .fieldPat (.ofList attrs) member false (← alternativePats g)

/-- The fields of a struct in a pattern after those `before`, at most `bound` of them, and the
attributes of the dots that stand for the others. -/
def fieldPatsUpTo : (bound : Nat) → (before : List (Tree .fieldPat)) →
    Parser (List (Tree .fieldPat) × Tree (.maybe (.many .attribute)))
  | 0, before => return (before, .absent)
  | bound + 1, before => do
    if ← atEnd then return (before, .absent)
    let attrs ← outerAttributes g
    if ← op? ".." then return (before, .present (.ofList attrs))
    let field ← fieldPat g attrs
    if !(← atEnd) then op ","
    fieldPatsUpTo bound (before ++ [field])

/-- The fields of a struct in a pattern, and the attributes of the dots that stand for the
others. -/
def fieldPats : Parser (List (Tree .fieldPat) × Tree (.maybe (.many .attribute))) := do
  fieldPatsUpTo g ((← ahead).length + 1) []

/-- A pattern that begins with a path: a macro, a struct with or without names, a range, or just
the path. -/
def pathLikePat : Parser Pat := do
  let path ← qualifiedPath g true
  let tokens ← ahead
  if atBang tokens then
    if let some names := path.names? then return .macroPat (← macroCall names)
  if atGroup .brace tokens then
    let (fields, rest) ← inside .brace (fieldPats g)
    return .structPat path (.ofList fields) rest
  if atGroup .parenthesis tokens then
    return .callPat path (.ofList (← inside .parenthesis (commaList (alternativePats g))))
  if atOp ".." tokens then rangePat g (some (.pathExpr path))
  else return .pathPat path

/-- A pattern that begins with a value: a range or just the value. -/
def valuePat : Parser Pat := do
  match ← rangeBound? g with
  | none => expected ["literal"]
  | some start => if atOp ".." (← ahead) then rangePat g (some start) else return .exprPat start

/-- A variable, which may have a pattern of its own. -/
def identPat : Parser Pat := do
  let byRef ← keyword? "ref"
  let mutable ← keyword? "mut"
  let variableName ← if atWord "self" (← ahead) then anyWord else name
  let sub ← if ← op? "@" then some <$> g.pat else pure none
  return .identPat byRef mutable variableName (.ofOption sub)

/-- Dots: a range without a start, or the elements that are not named. -/
def dotsPat : Parser Pat := do
  let limits ← rangeLimits
  match ← rangeBound? g with
  | some stop => return .exprPat (.range .absent limits (.present stop))
  | none =>
    if limits = .closed then expected ["range upper bound"]
    return .restPat

/-- Patterns between parentheses: a tuple, or one pattern in parentheses. -/
def parenthesizedPat : Parser Pat :=
  inside .parenthesis do
    if ← atEnd then return .tuplePat .nil false
    let first ← alternativePats g
    if ← atEnd then
      match first with
      | .restPat => return .tuplePat (.cons first .nil) false
      | _ => return .parenPat first
    op ","
    let more ← commaList (alternativePats g)
    return .tuplePat (.ofList (first :: more)) true

/-- An element of a slice. A range that lacks one of its ends needs parentheses. -/
def slicePat : Parser Pat := do
  let pat ← alternativePats g
  match pat with
  | .exprPat (.range .absent _ _) | .exprPat (.range _ _ .absent) =>
    broken "range pattern is not allowed unparenthesized inside slice pattern"
  | _ => return pat

/-- A boxed pattern. There is no tree for it. -/
def boxedPat : Parser Pat := do
  let (_, tokens) ← asWritten do
    keyword "box"
    g.pat
  return .rawPat tokens

/-- What a pattern may begin with, where none does. Three dots begin with two. -/
def patStarts (tokens : List Token) : List String :=
  ["identifier", code "::", code "<", code "_", "literal", code "const", code "ref", code "mut",
    code "&", "parentheses", "square brackets"] ++
    (if atOp ".." tokens then [] else [code ".."]) ++ [code "const"]

/-- A pattern without alternatives. -/
def readPat : Parser Pat := do
  let tokens ← ahead
  let next := skip tokens
  let pathAhead :=
    (atName tokens &&
      (atOp "::" next || atOp "!" next || atGroup .brace next || atGroup .parenthesis next ||
        atOp ".." next)) ||
    (atWord "self" tokens && atOp "::" next) || atOp "::" tokens || atOp "<" tokens ||
    atWord "Self" tokens || atWord "super" tokens || atWord "crate" tokens
  if pathAhead then pathLikePat g
  else if ← keyword? "_" then return .wildPat
  else if atWord "box" tokens then boxedPat g
  else if atOp "-" tokens || atLiteral tokens || atWord "const" tokens then valuePat g
  else if atWord "ref" tokens || atWord "mut" tokens || atWord "self" tokens || atName tokens then
    identPat g
  else if ← op? "&" then
    let mutable ← keyword? "mut"
    return .referencePat mutable (← g.pat)
  else if atGroup .parenthesis tokens then parenthesizedPat g
  else if atGroup .bracket tokens then
    return .slicePat (.ofList (← inside .bracket (commaList (slicePat g))))
  else if atOp ".." tokens && !atOp "..." tokens then dotsPat g
  else expected (patStarts tokens)

end Grammar

end ForeignWrap.Syntax
