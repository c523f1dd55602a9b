import ForeignWrap.Syntax.Statement

/-!
# Reading syntax

The readers of the classes of syntax call each other. They are tied together to a depth, which is
taken from the tokens: a reader calls another for the syntax inside only after it has taken a token,
so the number of tokens is depth enough.

## Main definitions

* `ForeignWrap.Syntax.Grammar.atDepth`: all readers, to a depth.
* `ForeignWrap.Syntax.nameOf`, `ForeignWrap.Syntax.typeOf`, `ForeignWrap.Syntax.pathOf`: what a text
  says, if it is one name, type or path.
* `ForeignWrap.Syntax.fileOf`: the file that tokens make up.
-/

namespace ForeignWrap.Syntax

open Code (Token)

/-- The readers that read one level with their own rules and all inside with `g`. -/
def Grammar.around (g : Grammar) : Grammar where
  type := g.readType
  bound := g.readBound
  expr := g.readExpr
  operand := g.readOperand
  rightSide := g.readRightSide
  leading := g.readLeading
  pat := g.readPat
  stmts := g.readStmts
  field := g.readField
  item := g.readItem
  implItem := g.readImplItem
  traitItem := g.readTraitItem
  externItem := g.readExternItem

/-- The readers of syntax that is at most `depth` levels deep. -/
def Grammar.atDepth : (depth : Nat) → Grammar
  | 0 => .exhausted
  | depth + 1 => (atDepth depth).around

/-- The readers of all syntax that these tokens can hold. -/
def Grammar.for (tokens : List Token) : Grammar :=
  .atDepth (Code.sizeOf tokens + 2)

/-- The tokens of a text that must be code. -/
def tokensOf (text : String) : Except SyntaxError (List Token) :=
  match Code.lex text with
  | some tokens => .ok tokens
  | none => .error .notCode

/-- Syntax and the tokens that it is written with. -/
structure Written (c : SyntaxClass) where
  tree : Tree c
  tokens : List Token

/-- The name that a text says. -/
def nameOf (text : String) : Except SyntaxError String := do
  let (name, _) ← Parser.run Parser.name (← tokensOf text)
  return name

/-- The type that a text says. -/
def typeOf (text : String) : Except SyntaxError (Written .type) := do
  let tokens ← tokensOf text
  let (type, written) ← Parser.run ((Grammar.for tokens).type true) tokens
  return ⟨type, written⟩

/-- The path that a text says. Arguments need no `::` before them. -/
def pathOf (text : String) : Except SyntaxError (Written .path) := do
  let tokens ← tokensOf text
  let (path, written) ← Parser.run ((Grammar.for tokens).path false) tokens
  return ⟨path, written⟩

/-- The file that tokens make up. -/
def fileOf (tokens : List Token) : Except SyntaxError File := do
  let g := Grammar.for tokens
  let reader : Parser File := do
    let attrs ← g.innerAttributes
    let items ← Parser.untilEnd g.item
    return ⟨attrs, items, Code.sizeOf tokens⟩
  let (file, _) ← Parser.run reader tokens
  return file

end ForeignWrap.Syntax
