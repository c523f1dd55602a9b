import ForeignWrap.Syntax.NamePath

/-!
# Reading attributes

## Main definitions

* `ForeignWrap.Syntax.Grammar.outerAttributes`: the attributes before something.
* `ForeignWrap.Syntax.Grammar.innerAttributes`: the attributes for what encloses them.
* `ForeignWrap.Syntax.Grammar.attributedBlock`: a block with attributes of its own.
-/

namespace ForeignWrap.Syntax.Grammar

open Code (Delimiter Token)
open Syntax.Parser

variable (g : Grammar)

/-- The value of an attribute: a literal, if nothing follows it, or an expression. -/
def attributeValue : Parser Expr := do
  let tokens ← ahead
  if let .literal text :: [] := tokens then
    let _ ← literal
    return .literal text
  if atOp "#" tokens && atGroup .bracket (skip tokens) then
    broken "unexpected attribute inside of attribute"
  g.expr true

/-- The content of an attribute: a path, which code in brackets or a value may follow. -/
def attributeBody (inner : Bool) : Parser Attribute := do
  let path ← if ← keyword? "unsafe" then pure ⟨false, ["unsafe"]⟩ else namePath
  let tokens ← ahead
  if atAnyGroup tokens then
    let (delimiter, content) ← anyGroup
    return .listAttribute inner path delimiter content
  if atOp "=" tokens && !atOp "==" tokens && !atOp "=>" tokens then
    op "="
    return .valueAttribute inner path (← attributeValue g)
  return .pathAttribute inner path

/-- The attributes before something. -/
def outerAttributes : Parser (List Attribute) :=
  collect do
    if !(← op? "#") then return none
    return some (← inside .bracket (attributeBody g false))

/-- The attributes for what encloses them. -/
def innerAttributes : Parser (List Attribute) :=
  collect do
    let tokens ← ahead
    if !atOp "#" tokens || !atOp "!" (skip tokens) then return none
    op "#"
    op "!"
    return some (← inside .bracket (attributeBody g true))

/-! ## Blocks -/

/-- Statements between braces. -/
def block : Parser (Tree .block) := do
  return .block .nil (.ofList (← inside .brace g.stmts))

/-- Statements between braces, after attributes for the block. -/
def attributedBlock : Parser (Tree .block) :=
  inside .brace do
    let inner ← innerAttributes g
    return .block (.ofList inner) (.ofList (← g.stmts))

end ForeignWrap.Syntax.Grammar
