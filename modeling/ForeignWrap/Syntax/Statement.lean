import ForeignWrap.Syntax.Item

/-!
# Reading statements

An expression that is not like a block needs a semicolon after it, unless it ends its block.

## Main definitions

* `ForeignWrap.Syntax.Tree.needsSemicolon`: whether a semicolon must follow a statement.
* `ForeignWrap.Syntax.Grammar.readStmts`: the statements of a block.
-/

namespace ForeignWrap.Syntax

open Code (Delimiter Token)
open Syntax.Parser

/-! ## Statements and their ends -/

/-- Whether an expression needs a semicolon to be a statement. -/
def Tree.isOpenStmt : {k : SyntaxClass} → Tree k → Bool
  | _, .macroExpr use => use.delimiter ≠ .brace
  | _, .attributed _ expr => expr.isOpenStmt
  | _, expr => !expr.endsArm

/-- Whether a semicolon must follow a statement that another follows. -/
def Tree.needsSemicolon : Stmt → Bool
  | .exprStmt expr semicolon => !semicolon && expr.isOpenStmt
  | .macroStmt _ use semicolon => !semicolon && use.delimiter ≠ .brace
  | _ => false

/-- Whether the last of some tokens is a group in braces. -/
def endsWithBraces (tokens : List Token) : Bool :=
  tokens.getLast?.any fun
    | .group .brace _ => true
    | _ => false

/-- Whether an expression or a type ends with a brace, so that a branch may not follow it. -/
def Tree.endsWithBrace : {k : SyntaxClass} → Tree k → Bool
  | _, .cons last .nil => last.endsWithBrace
  | _, .cons _ rest => rest.endsWithBrace
  | _, .path _ _ _ segments => segments.endsWithBrace
  | _, .segmentCall _ _ (.present type) => type.endsWithBrace
  | _, .traitBound _ _ _ trait => trait.endsWithBrace
  | _, .rawBound tokens => endsWithBraces tokens
  | _, .functionType _ _ _ _ (.present type) => type.endsWithBrace
  | _, .implType bounds => bounds.endsWithBrace
  | _, .objectType _ bounds => bounds.endsWithBrace
  | _, .pathType name => name.endsWithBrace
  | _, .macroType use => use.delimiter = .brace
  | _, .pointerType _ elem => elem.endsWithBrace
  | _, .referenceType _ _ elem => elem.endsWithBrace
  | _, .rawType tokens => endsWithBraces tokens
  | _, .asyncBlock .. | _, .blockExpr .. | _, .constBlock .. | _, .forLoop .. | _, .ifThen ..
  | _, .loop .. | _, .matchOn .. | _, .structExpr .. | _, .tryBlock .. | _, .unsafeBlock ..
  | _, .whileLoop .. => true
  | _, .assign _ right => right.endsWithBrace
  | _, .binary _ _ right => right.endsWithBrace
  | _, .breakTo _ (.present value) => value.endsWithBrace
  | _, .cast _ type => type.endsWithBrace
  | _, .closure _ _ _ _ _ _ _ body => body.endsWithBrace
  | _, .letIn _ expr => expr.endsWithBrace
  | _, .macroExpr use => use.delimiter = .brace
  | _, .range _ _ (.present stop) => stop.endsWithBrace
  | _, .rawAddress _ expr => expr.endsWithBrace
  | _, .reference _ expr => expr.endsWithBrace
  | _, .returnWith (.present value) => value.endsWithBrace
  | _, .unary _ expr => expr.endsWithBrace
  | _, .yieldWith (.present value) => value.endsWithBrace
  | _, .rawExpr tokens => endsWithBraces tokens
  | _, .attributed _ expr => expr.endsWithBrace
  | _, _ => false

/-- Puts the attributes of a statement before the first operand of its expression. -/
def Tree.attributeFirst (attrs : List Attribute) : {k : SyntaxClass} → Tree k → Tree k
  | _, .assign left right => .assign (left.attributeFirst attrs) right
  | _, .binary operator left right => .binary operator (left.attributeFirst attrs) right
  | _, .cast expr type => .cast (expr.attributeFirst attrs) type
  | .expr, expr => expr.withAttributes attrs
  | _, tree => tree

/-! ## What is ahead -/

/-- Whether an item comes first where a statement may stand. -/
def atItem (tokens : List Token) : Bool :=
  let next := skip tokens
  let third := skip next
  atWord "pub" tokens || (atWord "crate" tokens && !atOp "::" next) || atWord "extern" tokens ||
    atWord "use" tokens ||
    (atWord "static" tokens &&
      (atWord "mut" next ||
        (atName next && !(atWord "async" next && (atWord "move" third || atOp "|" third))))) ||
    (atWord "const" tokens &&
      !(atGroup .brace next || atWord "static" next ||
        (atWord "async" next &&
          !(atWord "unsafe" third || atWord "extern" third || atWord "fn" third)) ||
        atWord "move" next || atOp "|" next)) ||
    (atWord "unsafe" tokens && !atGroup .brace next) ||
    (atWord "async" tokens &&
      (atWord "unsafe" next || atWord "extern" next || atWord "fn" next)) ||
    ["fn", "mod", "type", "struct", "enum", "trait", "impl", "macro"].any (atWord · tokens) ||
    (atWord "union" tokens && atName next) || (atWord "auto" tokens && atWord "trait" next) ||
    (atWord "default" tokens && (atWord "unsafe" next || atWord "impl" next))

namespace Grammar

variable (g : Grammar)

/-! ## Statements -/

/-- A `let`, after its attributes. -/
def letStmt (attrs : List Attribute) : Parser Stmt := do
  keyword "let"
  let pat ← g.pat
  let pat ← if ← op? ":" then (Tree.typedPat .nil pat ·) <$> g.type true else pure pat
  if !(← op? "=") then
    op ";"
    return .letStmt (.ofList attrs) pat .absent .absent
  let init ← g.expr true
  let diverge ←
    if !init.endsWithBrace && (← keyword? "else") then some <$> block g else pure none
  op ";"
  return .letStmt (.ofList attrs) pat (.present init) (.ofOption diverge)

/-- A use of a macro with braces as a statement, if it comes next. Where a dot or a question mark
follows it, it is the beginning of an expression. -/
def macroStmt? (attrs : List Attribute) : Parser (Option Stmt) := do
  let some (path, input) ← attempt namePath | return none
  let next := skip input.rest
  if !atOp "!" input.rest || !atGroup .brace next || atDot (skip next) || atOp "?" (skip next) then
    return none
  set input
  let call ← macroCall path
  return some (.macroStmt (.ofList attrs) call (← op? ";"))

/-- Whether a use of a macro that gives it a name comes next. -/
def atNamedMacro : Parser Bool := do
  let some (_, input) ← attempt namePath | return false
  let next := skip input.rest
  return atOp "!" input.rest && (atName next || atWord "try" next)

/-- An expression as a statement, after its attributes. -/
def exprStmt (attrs : List Attribute) : Parser Stmt := do
  let expr := (← readLeading g).attributeFirst attrs
  let semicolon ← op? ";"
  let macroIn : Expr → Option (Tree (.many .attribute) × MacroCall)
    | .macroExpr call => some (.nil, call)
    | .attributed attrs (.macroExpr call) => some (attrs, call)
    | _ => none
  match macroIn expr with
  | some (attrs, call) =>
    if semicolon || call.delimiter = .brace then return .macroStmt attrs call semicolon
    else return .exprStmt expr semicolon
  | none => return .exprStmt expr semicolon

/-- A statement. -/
def stmt : Parser Stmt :=
  orRaw (fun tokens => .itemStmt (.rawItem tokens)) do
    let attrs ← outerAttributes g
    if let some stmt := ← macroStmt? attrs then return some stmt
    let tokens ← ahead
    if atWord "let" tokens then some <$> letStmt g attrs
    else if atItem tokens || (← atNamedMacro) then
      return (← itemAfter? g attrs).map .itemStmt
    else some <$> exprStmt g attrs

/-- The statements of a block. -/
def readStmts : Parser (List Stmt) :=
  untilEnd do
    if ← op? ";" then return .emptyStmt
    let stmt ← stmt g
    if stmt.needsSemicolon && !(← atEnd) then
      broken ("unexpected token, expected " ++ code ";")
    return stmt

end Grammar

end ForeignWrap.Syntax
