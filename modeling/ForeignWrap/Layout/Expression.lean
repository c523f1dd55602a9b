import ForeignWrap.Layout.Pattern
import ForeignWrap.Syntax.Statement

/-!
# Layout of expressions

A chain of fields and methods is one block: it stays on its line, or each dot begins a line. Where
nothing comes before the chain on its line, a short name keeps the first dot beside it.

## Main definitions

* `ForeignWrap.Layout.Scribe.writeExpr`: an expression.
* `ForeignWrap.Layout.Scribe.writeLink`: an expression inside a chain.
* `ForeignWrap.Layout.Scribe.smallBlock`: a block that may stay on one line.
-/

namespace ForeignWrap.Layout

open Syntax

/-! ## Kinds of expressions -/

/-- Whether the lines of an expression may begin where its first one does: it has brackets of its
own. -/
def isBlockLike : Expr → Bool
  | .array .. | .asyncBlock .. | .blockExpr .. | .closure .. | .constBlock .. | .structExpr ..
  | .tryBlock .. | .tuple .. | .unsafeBlock .. => true
  | _ => false

/-- Whether an expression is a name no longer than an indentation. -/
def isShortName : Expr → Bool
  | .pathExpr (.path .absent _ false segments) =>
    match segments.toList with
    | [.segment name] => width name ≤ indentStep.toNat
    | _ => false
  | _ => false

/-- Whether the brace after an expression begins a line where the expression does not fit in one. -/
def leavesBrace : {k : SyntaxClass} → Syntax.Tree k → Bool
  | _, .assign .. | _, .await .. | _, .binary .. | _, .cast .. | _, .field .. | _, .index ..
  | _, .methodCall .. => true
  | _, .breakTo _ (.present value) => leavesBrace value
  | _, .call func _ => leavesBrace func
  | _, .letIn _ expr => leavesBrace expr
  | _, .paren expr => leavesBrace expr
  | _, .range _ _ (.present stop) => leavesBrace stop
  | _, .rawAddress _ expr => leavesBrace expr
  | _, .reference _ expr => leavesBrace expr
  | _, .returnWith (.present value) => leavesBrace value
  | _, .question expr => leavesBrace expr
  | _, .unary _ expr => leavesBrace expr
  | _, .yieldWith (.present value) => leavesBrace value
  | _, .attributed _ expr => leavesBrace expr
  | _, _ => false

/-- Whether an expression is written with a semicolon where it ends a block. -/
def endsWithSemicolon : {k : SyntaxClass} → Syntax.Tree k → Bool
  | _, .assign .. | _, .breakTo .. | _, .continueTo .. | _, .returnWith ..
  | _, .yieldWith .. => true
  | _, .binary operator _ _ => operator.precedence = .assign
  | _, .attributed _ expr => endsWithSemicolon expr
  | _, _ => false

/-- Whether an expression keeps its meaning where a statement stands, which a block or a macro with
braces would end: it does not begin with one. -/
def isStatementSafe : {k : SyntaxClass} → Syntax.Tree k → Bool
  | _, .letIn .. => false
  | _, .assign left _ => left.isOpenStmt && isStatementSafe left
  | _, .binary _ left _ => left.isOpenStmt && isStatementSafe left
  | _, .cast expr _ => expr.isOpenStmt && isStatementSafe expr
  | _, .call func _ => func.isOpenStmt && isStatementSafe func
  | _, .index base _ => base.isOpenStmt && isStatementSafe base
  | _, .range (.present start) _ _ => start.isOpenStmt && isStatementSafe start
  | _, .await base => isStatementSafe base
  | _, .field base _ => isStatementSafe base
  | _, .methodCall receiver _ _ _ => isStatementSafe receiver
  | _, .question expr => isStatementSafe expr
  | _, .attributed _ expr => isStatementSafe expr
  | _, _ => true

/-- Whether an expression begins with the label of a block or a loop. -/
def beginsWithLabel : {k : SyntaxClass} → Syntax.Tree k → Bool
  | _, .blockExpr label _ => label.isSome
  | _, .forLoop label _ _ _ => label.isSome
  | _, .loop label _ => label.isSome
  | _, .whileLoop label _ _ => label.isSome
  | _, .assign left _ => beginsWithLabel left
  | _, .binary _ left _ => beginsWithLabel left
  | _, .cast expr _ => beginsWithLabel expr
  | _, .call func _ => beginsWithLabel func
  | _, .index base _ => beginsWithLabel base
  | _, .range (.present start) _ _ => beginsWithLabel start
  | _, .await base => beginsWithLabel base
  | _, .field base _ => beginsWithLabel base
  | _, .methodCall receiver _ _ _ => beginsWithLabel receiver
  | _, .question expr => beginsWithLabel expr
  | _, .attributed _ expr => beginsWithLabel expr
  | _, _ => false

/-- Whether a type ends with a path that arguments might follow. -/
def endsWithName : {k : SyntaxClass} → Syntax.Tree k → Bool
  | _, .cons last .nil => endsWithName last
  | _, .cons _ rest => endsWithName rest
  | _, .path _ _ _ segments => endsWithName segments
  | _, .segment _ => true
  | _, .segmentCall _ _ (.present type) => endsWithName type
  | _, .traitBound _ _ _ path => endsWithName path
  | _, .functionType _ _ _ _ (.present type) => endsWithName type
  | _, .implType bounds => endsWithName bounds
  | _, .objectType _ bounds => endsWithName bounds
  | _, .pathType path => endsWithName path
  | _, .pointerType _ elem => endsWithName elem
  | _, .referenceType _ _ elem => endsWithName elem
  | _, _ => false

/-- An expression with parentheses around the cast at its end, where an angle bracket after it would
be read as the beginning of arguments. -/
def beforeAngle : {k : SyntaxClass} → Syntax.Tree k → Syntax.Tree k
  | _, .cast expr type =>
    if endsWithName type then .paren (.cast expr type) else .cast expr type
  | _, .binary operator left right => .binary operator left (beforeAngle right)
  | _, expr => expr

/-- The left side of an operator, as it is written before it. -/
def leftSide (operator : BinaryOp) (left : Expr) : Expr :=
  if operator = .lt || operator = .shl then beforeAngle left else left

/-- Whether a literal is short: a number without a point, a character, a byte or a truth value. -/
def isShortLiteral (text : String) : Bool :=
  match text.toList with
  | '\'' :: _ | 'b' :: '\'' :: _ => true
  | _ => text = "true" || text = "false" || (integer? text).isSome

/-- Whether an expression is a short literal. -/
def isShortElem : {k : SyntaxClass} → Syntax.Tree k → Bool
  | _, .literal text => isShortLiteral text
  | _, .attributed _ expr => isShortElem expr
  | _, _ => false

/-- The expression that a block of one expression stands for, if it has neither a label nor
attributes. -/
def innermost : {k : SyntaxClass} → Syntax.Tree k → Syntax.Tree k
  | _, .blockExpr none (.block .nil (.cons (.exprStmt value false) .nil)) => innermost value
  | _, expr => expr

namespace Scribe

variable (s : Scribe)

/-! ## Blocks -/

/-- The statements of a block. -/
def stmts (stmts : List Stmt) : Draft :=
  each stmts fun _ isLast stmt => s.stmt isLast stmt

/-- A block that may stay on one line. It is inside a box, one step in. -/
def smallBlock : Syntax.Tree .block → Draft
  | .block inner body => do
    text "\x7b"
    if !inner.toList.isEmpty || !body.toList.isEmpty then
      space
      s.innerAttributes inner.toList
      match body.toList with
      | [.exprStmt expr false] =>
        flow 0 (s.expr true expr)
        space
      | body => stmts s body
      outdent
    text "\x7d"

/-- A block each of whose statements has its own line, after its open brace. -/
def blockBody : Syntax.Tree .block → Draft
  | .block inner body => do
    block indentStep do
      newlineIfMore
      s.innerAttributes inner.toList
      stmts s body.toList
      outdent
    text "\x7d"

/-- The label of a block or a loop. -/
def label : Option String → Draft
  | none => pure ()
  | some name => text (lifetimeText name ++ ": ")

/-- The head of a block: an expression and the space before the brace, which may end the line. -/
def head (expr : Expr) : Draft :=
  block 0 do
    s.expr false expr
    if leavesBrace expr then space else text " "

/-! ## Lists -/

/-- The arguments of a call. A single one with brackets of its own needs no box around it. -/
def callArgs : List Expr → Draft
  | [arg] =>
    if isBlockLike arg then s.expr false arg else commaBlock indentStep [arg] (s.expr false)
  | args => commaBlock indentStep args (s.expr false)

/-- The elements of a tuple. -/
def tupleElems : List Expr → Draft
  | [elem] =>
    block indentStep do
      mayEnd
      s.expr false elem
      text ","
      mayEnd
      outdent
  | elems => commaBlock indentStep elems (s.expr false)

/-- The elements of an array. Short literals fill their lines. -/
def arrayElems (elems : List Expr) : Draft :=
  if elems.isEmpty || !elems.all isShortElem then commaBlock indentStep elems (s.expr false)
  else
    block indentStep do
      mayEnd
      flow 0 do
        each elems fun _ isLast elem => do
          s.expr false elem
          if !isLast then
            text ","
            space
      comma true
      outdent

/-- A field in a struct expression. -/
def fieldValue : Syntax.Tree .fieldValue → Draft
  | .fieldValue attrs member value => do
    s.outerAttributes attrs.toList
    text (memberText member)
    if let some value := value.toOption then
      text ": "
      flow 0 (s.expr false value)

/-! ## Chains -/

/-- The gap between an expression and a dot, if the line may end there. -/
def gapAfter (lineStart : Bool) (base : Expr) : Draft :=
  if lineStart && isShortName base then pure () else gapBeforeDot

/-- A link of a chain that is a method, after its receiver. -/
def method (lineStart isFirst : Bool) (receiver : Expr) (name : String)
    (turbofish : Syntax.Tree (.maybe (.many .genericArg))) (args : List Expr) : Draft := do
  s.link lineStart receiver
  gapAfter lineStart receiver
  text "."
  text name
  if let some turbofish := turbofish.toOption then s.args .value turbofish.toList
  block (if isFirst && lineStart && isShortName receiver then -indentStep else 0) do
    text "("
    callArgs s args
    text ")"

/-- An expression inside a chain. -/
def writeLink (lineStart : Bool) : Expr → Draft
  | .await base => do
    s.link lineStart base
    gapAfter lineStart base
    text ".await"
  | .call func args => do
    s.link false func
    text "("
    callArgs s args.toList
    text ")"
  | .field base member => do
    s.link lineStart base
    gapAfter lineStart base
    text ("." ++ memberText member)
  | .index base position => do
    s.link lineStart base
    text "["
    s.expr false position
    text "]"
  | .methodCall receiver name turbofish args =>
    method s lineStart false receiver name turbofish args.toList
  | .question expr => do
    s.link lineStart expr
    text "?"
  | expr => block (-indentStep) (s.expr false expr)

/-! ## Closures -/

/-- The body of a closure that is put between brackets where it does not fit on the line. -/
def bracedBody (body : Expr) : Draft :=
  let safe := isStatementSafe body
  block indentStep do
    gap { lineEnd := if safe then "\x7b" else "(" }
    s.expr false body
    gap {
      indent := -indentStep
      lineEnd := if safe && endsWithSemicolon body then ";" else ""
      lineStart := if safe then "\x7d" else ")" }

/-- Whether the body of a closure stays after its parameters as it is. -/
def keepsLine : Expr → Bool
  | .matchOn .. | .call .. => true
  | body => isBlockLike body

/-- A closure. -/
def closure (typeParams : Syntax.Tree (.maybe (.many .genericParam)))
    (isConst isStatic isAsync capture : Bool) (inputs : List Pat)
    (output : Syntax.Tree (.maybe .type)) (body : Expr) : Draft :=
  flow 0 do
    forParams s typeParams
    keywordIf isConst "const"
    keywordIf isStatic "static"
    keywordIf isAsync "async"
    keywordIf capture "move"
    let params : Draft := do
      text "|"
      each inputs fun isFirst isLast pat => do
        if isFirst then mayEnd
        s.pat pat
        if !isLast then
          text ","
          space
    match output.toOption with
    | none =>
      block indentStep do
        params
        text "|"
        space
        outdent
      goOn
      if keepsLine body then s.expr false body else bracedBody s body
    | some type =>
      block indentStep do
        params
        if !inputs.isEmpty then
          comma true
          outdent
        text "|"
      text " -> "
      s.type type
      text " "
      goOn
      s.expr false body

/-! ## Conditions, loops and matches -/

/-- The branches after the first of a condition. -/
def branches : {k : SyntaxClass} → Syntax.Tree k → Draft
  | _, .present next => branches next
  | _, .ifThen cond branch next => do
    text " else if "
    block (-indentStep) (head s cond)
    smallBlock s branch
    branches next
  | _, .blockExpr _ branch => do
    text " else "
    smallBlock s branch
  | _, _ => pure ()

/-- A condition with its branches. Without others, the first has its own lines. -/
def ifThen (cond : Expr) (branch : Syntax.Tree .block)
    (otherwise : Syntax.Tree (.maybe .expr)) : Draft :=
  block indentStep do
    text "if "
    block (-indentStep) (head s cond)
    match otherwise, branch with
    | .present next, _ =>
      smallBlock s branch
      branches s next
    | .absent, .block _ .nil => text "\x7b\x7d"
    | .absent, .block _ body =>
      text "\x7b"
      newline
      stmts s body.toList
      outdent
      text "\x7d"

/-- The body of an arm that has braces of its own. -/
def armBlock (name : Option String) (body : Syntax.Tree .block) : Draft := do
  label name
  text "\x7b"
  goOn
  blockBody s body

/-- The body of an arm. Attributes before a block are left out, and an empty tuple is written as an
empty block. -/
def armBody (body : Expr) : Draft := do
  match innermost body with
  | .tuple .nil => armBlock s none (.block .nil .nil)
  | .blockExpr name body => armBlock s name body
  | .attributed _ (.blockExpr name body) => armBlock s name body
  | body =>
    let safe := isStatementSafe body
    goOn
    block indentStep do
      gap { lineEnd := if safe then "\x7b" else "(" }
      s.expr true body
      gap {
        indent := -indentStep
        lineEnd := if safe && endsWithSemicolon body then ";" else ""
        lineStart := if safe then "\x7d" else "),"
        flat := if body.endsArm then "" else "," }

/-- An arm of a match. -/
def arm : Syntax.Tree .arm → Draft
  | .arm attrs pat guard body => do
    s.outerAttributes attrs.toList
    flow 0 do
      s.pat pat
      if let some guard := guard.toOption then
        text " if "
        s.expr false guard
      text " => "
      armBody s body

/-- A match. -/
def matchOn (expr : Expr) (inner : List Attribute) (arms : List (Syntax.Tree .arm)) : Draft :=
  flow 0 do
    text "match "
    head s expr
    text "\x7b"
    goOn
    block indentStep do
      newlineIfMore
      s.innerAttributes inner
      all arms fun a => do
        arm s a
        newline
      outdent
    text "\x7d"

/-! ## Expressions -/

/-- The most that a struct expression takes on one line. -/
def structWidth : Nat :=
  34

/-- A keyword and the value that it may carry. -/
def jump (keyword : String) (value : Syntax.Tree (.maybe .expr)) : Draft := do
  text keyword
  if let some value := value.toOption then
    text " "
    s.expr false value

/-- A block that may stay on one line, after its keyword. -/
def keywordBlock (keyword : String) (body : Syntax.Tree .block) : Draft := do
  text keyword
  block indentStep (smallBlock s body)

/-- An expression. -/
def writeExpr (lineStart : Bool) : Expr → Draft
  | .literal value => text value
  | .pathExpr p => path s .value p
  | .macroExpr call => macroCall call none false
  | .attributed attrs expr => do
    s.outerAttributes attrs.toList
    if expr.isRange then text "("
    s.expr lineStart expr
    if expr.isRange then text ")"
  | .unary operator expr => do
    text operator.text
    s.expr false expr
  | .reference mutable expr => do
    text (if mutable then "&mut " else "&")
    s.expr false expr
  | .rawAddress mutable expr => do
    text (if mutable then "&raw mut " else "&raw const ")
    s.expr false expr
  | .binary operator left right =>
    flow indentStep do
      flow (-indentStep) (s.expr false (leftSide operator left))
      space
      text operator.text
      text " "
      s.expr false right
  | .assign left right =>
    flow 0 do
      s.expr false left
      text " = "
      goOn
      s.expr false right
  | .cast expr type =>
    flow indentStep do
      flow (-indentStep) (s.expr false expr)
      space
      text "as "
      s.type type
  | .question expr => do
    s.expr lineStart expr
    text "?"
  | .await base => block indentStep (writeLink s lineStart (.await base))
  | .call func args => do
    s.expr false func
    text "("
    callArgs s args.toList
    text ")"
  | .methodCall receiver name turbofish args =>
    block indentStep (method s lineStart true receiver name turbofish args.toList)
  | .field base member => block indentStep (writeLink s lineStart (.field base member))
  | .index base position => do
    s.expr lineStart base
    text "["
    s.expr false position
    text "]"
  | .range start limits stop => do
    if let some start := start.toOption then s.expr false start
    text (if limits = .closed then "..=" else "..")
    if let some stop := stop.toOption then s.expr false stop
  | .paren expr => do
    text "("
    s.expr false expr
    text ")"
  | .tuple elems => do
    text "("
    tupleElems s elems.toList
    text ")"
  | .array elems => do
    text "["
    arrayElems s elems.toList
    text "]"
  | .repeated elem length => do
    text "["
    s.expr false elem
    text "; "
    s.expr false length
    text "]"
  | .structExpr p fields _ base => do
    narrowBlock indentStep structWidth do
      path s .value p
      text " \x7b"
      spaceIfMore
      each fields.toList fun _ isLast field => do
        fieldValue s field
        commaBeforeBrace (isLast && base.toOption.isNone)
      if let some base := base.toOption then
        text ".."
        s.expr false base
        space
      outdent
    text "\x7d"
  | .blockExpr name body => do
    label name
    block indentStep (smallBlock s body)
  | .unsafeBlock body => keywordBlock s "unsafe " body
  | .asyncBlock capture body => keywordBlock s (if capture then "async move " else "async ") body
  | .constBlock body => keywordBlock s "const " body
  | .tryBlock body => keywordBlock s "try " body
  | .ifThen cond branch otherwise => ifThen s cond branch otherwise
  | .letIn pat expr =>
    flow 0 do
      text "let "
      s.pat pat
      text " = "
      goOn
      s.expr false expr
  | .whileLoop name cond body => do
    label name
    text "while "
    head s cond
    text "\x7b"
    goOn
    blockBody s body
  | .loop name body => do
    label name
    text "loop \x7b"
    blockBody s body
  | .forLoop name pat expr body =>
    flow 0 do
      label name
      text "for "
      s.pat pat
      text " in "
      goOn
      head s expr
      text "\x7b"
      goOn
      blockBody s body
  | .matchOn expr inner arms => matchOn s expr inner.toList arms.toList
  | .closure typeParams isConst isStatic isAsync capture inputs output body =>
    closure s typeParams isConst isStatic isAsync capture inputs.toList output body
  | .breakTo name value => do
    text "break"
    if let some name := name then text (" " ++ lifetimeText name)
    match value.toOption with
    | none => pure ()
    | some value =>
      let apart := name.isNone && beginsWithLabel value
      text (if apart then " (" else " ")
      s.expr false value
      if apart then text ")"
  | .continueTo name => do
    text "continue"
    if let some name := name then text (" " ++ lifetimeText name)
  | .returnWith value => jump s "return" value
  | .yieldWith value => jump s "yield" value
  | .infer => text "_"
  | .rawExpr tokens => noLayout "Expr" tokens

end Scribe

end ForeignWrap.Layout
