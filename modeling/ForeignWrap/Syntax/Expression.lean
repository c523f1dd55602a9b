import ForeignWrap.Syntax.Operator
import ForeignWrap.Syntax.Pattern

/-!
# Reading expressions

An operator takes as its right side the longest expression whose operators bind tighter than
itself; only assignments group to the right. Where `struct` is false, a brace after a path begins
the block of a condition and not the fields of a struct.

## Main definitions

* `ForeignWrap.Syntax.Grammar.readOperand`: an expression without operators between expressions.
* `ForeignWrap.Syntax.Grammar.readRightSide`: the right side of an operator.
* `ForeignWrap.Syntax.Grammar.readExpr`: a whole expression.
* `ForeignWrap.Syntax.Grammar.readLeading`: an expression at the start of a statement.
-/

namespace ForeignWrap.Syntax

open Code (Delimiter Token)
open Syntax.Parser

/-- Whether a dot of a field or method comes first. -/
def atDot (tokens : List Token) : Bool :=
  atOp "." tokens && !atOp ".." tokens

/-- Whether an expression ends the arm of a match by itself, without a comma. -/
def Tree.endsArm : {k : SyntaxClass} → Tree k → Bool
  | _, .ifThen .. | _, .matchOn .. | _, .blockExpr .. | _, .unsafeBlock .. | _, .whileLoop ..
  | _, .loop .. | _, .forLoop .. | _, .tryBlock .. | _, .constBlock .. => true
  | _, .attributed _ expr => expr.endsArm
  | _, _ => false

/-- Whether an expression is a range. -/
def Tree.isRange : Expr → Bool
  | .range .. => true
  | _ => false

/-- Whether an expression compares two others. -/
def Tree.isComparison : Expr → Bool
  | .binary operator _ _ => operator.precedence = .compare
  | _ => false

/-- An expression with the attributes before it. -/
def Tree.withAttributes (attrs : List Attribute) (expr : Expr) : Expr :=
  if attrs.isEmpty then expr else .attributed (.ofList attrs) expr

/-- Whether an expression may begin here. -/
def atExpr (tokens : List Token) : Bool :=
  (atAnyWord tokens && !atWord "as" tokens) || atAnyGroup tokens || atLiteral tokens ||
    (atOp "!" tokens && !atOp "!=" tokens) ||
    (atOp "-" tokens && !atOp "-=" tokens && !atOp "->" tokens) ||
    (atOp "*" tokens && !atOp "*=" tokens) || (atOp "|" tokens && !atOp "|=" tokens) ||
    (atOp "&" tokens && !atOp "&=" tokens) || atOp ".." tokens ||
    (atOp "<" tokens && !atOp "<=" tokens && !atOp "<<=" tokens) || atOp "::" tokens ||
    atLifetime tokens || atOp "#" tokens

/-- Whether a range has no end here. -/
def atOpenRange (struct : Bool) (tokens : List Token) : Bool :=
  tokens.isEmpty || atOp "," tokens || atOp ";" tokens || atDot tokens || atOp "?" tokens ||
    atOp "=>" tokens || (!struct && atGroup .brace tokens) || atOp "=" tokens ||
    atOp "+" tokens || atOp "/" tokens || atOp "%" tokens || atOp "^" tokens ||
    atOp ">" tokens || atOp "<=" tokens || atOp "!=" tokens || atOp "-=" tokens ||
    atOp "*=" tokens || atOp "&=" tokens || atOp "|=" tokens || atOp "<<=" tokens ||
    atWord "as" tokens

namespace Grammar

variable (g : Grammar)

/-! ## Conditions and loops -/

/-- The label of a block or loop, with its colon. -/
def label : Parser String := do
  let name ← lifetime
  op ":"
  return name

/-- The part of a condition after a branch: another branch, or the last block. -/
def otherwise? : Parser (Option (Option (Expr × Tree .block) × Option (Tree .block))) := do
  if !(← keyword? "else") then return none
  if ← keyword? "if" then
    let cond ← g.expr false
    return some (some (cond, ← block g), none)
  if atGroup .brace (← ahead) then return some (none, some (← block g))
  expected [code "if", "curly braces"]

/-- A condition with all its branches. -/
def ifThen : Parser Expr := do
  keyword "if"
  let cond ← g.expr false
  let first ← block g
  let bound := (← ahead).length + 1
  return .ifThen cond first (.ofOption (← branches bound))
where
  /-- The branches after one that has been read. -/
  branches : Nat → Parser (Option Expr)
    | 0 => return none
    | bound + 1 => do
      match ← otherwise? g with
      | some (some (cond, block), _) =>
        return some (.ifThen cond block (.ofOption (← branches bound)))
      | some (none, some block) => return some (.blockExpr none block)
      | _ => return none

/-- A loop with a condition. -/
def whileLoop (label : Option String) : Parser Expr := do
  keyword "while"
  let cond ← g.expr false
  return .whileLoop label cond (← attributedBlock g)

/-- A loop without end. -/
def loop (label : Option String) : Parser Expr := do
  keyword "loop"
  return .loop label (← attributedBlock g)

/-- A loop over what an expression yields. -/
def forLoop (label : Option String) : Parser Expr := do
  keyword "for"
  let pat ← alternativePats g
  keyword "in"
  let expr ← g.expr false
  return .forLoop label pat expr (← attributedBlock g)

/-- An arm of a match. A comma must follow it, unless it is the last one or ends by itself. -/
def arm : Parser (Tree .arm) := do
  let attrs ← outerAttributes g
  let pat ← alternativePats g
  let guard ← if ← keyword? "if" then some <$> g.expr true else pure none
  op "=>"
  let body ← g.leading
  if !body.endsArm && !(← atEnd) then op ","
  else
    let _ ← op? ","
  return .arm (.ofList attrs) pat (.ofOption guard) body

/-- A match. -/
def matchOn : Parser Expr := do
  keyword "match"
  let expr ← g.expr false
  inside .brace do
    let inner ← innerAttributes g
    return .matchOn expr (.ofList inner) (.ofList (← untilEnd (arm g)))

/-- A loop or block with a label. -/
def labeled : Parser Expr := do
  let label ← label
  let tokens ← ahead
  if atWord "while" tokens then whileLoop g label
  else if atWord "for" tokens then forLoop g label
  else if atWord "loop" tokens then loop g label
  else if atGroup .brace tokens then return .blockExpr label (← attributedBlock g)
  else expected ["loop or block expression"]

/-! ## Lists -/

/-- Expressions between parentheses: a tuple, or one expression in parentheses. -/
def parenthesized : Parser Expr :=
  inside .parenthesis do
    if ← atEnd then return .tuple .nil
    let first ← g.expr true
    if ← atEnd then return .paren first
    op ","
    return .tuple (.ofList (first :: (← commaList (g.expr true))))

/-- An array, by its elements or by one element and a length. -/
def array : Parser Expr :=
  inside .bracket do
    let tokens ← ahead
    if tokens.isEmpty then return .array .nil
    let first ← g.expr true
    let tokens ← ahead
    if tokens.isEmpty then return .array (.cons first .nil)
    if ← op? "," then return .array (.ofList (first :: (← commaList (g.expr true))))
    if ← op? ";" then return .repeated first (← g.expr true)
    expected [code "," ++ " or " ++ code ";"]

/-- The arguments of a call. -/
def callArgs : Parser (List Expr) :=
  inside .parenthesis (commaList (g.expr true))

/-! ## Paths, macros and structs -/

/-- A field in a struct expression. -/
def fieldValue : Parser (Tree .fieldValue) := do
  let attrs ← outerAttributes g
  let member ← member
  if atOp ":" (← ahead) || !member.isNamed then
    op ":"
    return .fieldValue (.ofList attrs) member (.present (← g.expr true))
  return .fieldValue (.ofList attrs) member .absent

/-- The fields of a struct expression, and the dots at their end with what follows them. -/
def fieldValues : Parser (List (Tree .fieldValue) × Bool × Option Expr) := do
  let fields ← collect do
    let tokens ← ahead
    if tokens.isEmpty || atOp ".." tokens then return none
    let field ← fieldValue g
    if !(← atEnd) then op ","
    return some field
  if !(← op? "..") then return (fields, false, none)
  if ← atEnd then return (fields, true, none)
  return (fields, true, some (← g.expr true))

/-- An expression that begins with a path: a macro, a struct, or just the path. -/
def pathLikeExpr (struct : Bool) : Parser Expr := do
  let path ← qualifiedPath g true
  let tokens ← ahead
  if atBang tokens then
    if let some names := path.names? then return .macroExpr (← macroCall names)
  if struct && atGroup .brace tokens then
    let (fields, dots, base) ← inside .brace (fieldValues g)
    return .structExpr path (.ofList fields) dots (.ofOption base)
  return .pathExpr path

/-! ## Closures -/

/-- A parameter of a closure. A pattern without a tree cannot hold the attributes before it. -/
def closureParam : Parser Pat := do
  let (attrs, attrTokens) ← capture (outerAttributes g)
  let (pat, patTokens) ← capture g.pat
  let typed := atOp ":" (← ahead)
  if typed || !pat.isRawPat then write attrTokens
  write patTokens
  if typed then
    op ":"
    return .typedPat (.ofList attrs) pat (← g.type true)
  if attrs.isEmpty then return pat else return .attributedPat (.ofList attrs) pat

/-- A closure. -/
def closure (struct : Bool) : Parser Expr := do
  let typeParams ← forParams? g
  let isConst ← keyword? "const"
  let isStatic ← keyword? "static"
  let isAsync ← keyword? "async"
  let capture ← keyword? "move"
  op "|"
  let params ← collect do
    if atOp "|" (← ahead) then return none
    let param ← closureParam g
    if !atOp "|" (← ahead) then op ","
    return some param
  op "|"
  let build := Tree.closure typeParams isConst isStatic isAsync capture (.ofList params)
  if ← op? "->" then
    let type ← g.type true
    return build (.present type) (.blockExpr none (← block g))
  return build .absent (← g.expr struct)

/-- Whether a closure comes first. -/
def atClosure (tokens : List Token) : Bool :=
  let next := skip tokens
  atOp "|" tokens || atWord "move" tokens || (atWord "for" tokens && atGenericParams next) ||
    (atWord "const" tokens && !atGroup .brace next) || atWord "static" tokens ||
    (atWord "async" tokens && (atOp "|" next || atWord "move" next))

/-! ## Jumps -/

/-- A jump out of a loop or block. -/
def breakTo (struct : Bool) : Parser Expr := do
  keyword "break"
  let label ←
    match ← attempt lifetime with
    | some (name, input) =>
      if atOp ":" input.rest then
        let _ ← g.expr true
        broken "parentheses required"
      set input
      pure (some name)
    | none => pure none
  let tokens ← ahead
  if atExpr tokens && (struct || !atGroup .brace tokens) then
    return .breakTo label (.present (← g.expr true))
  return .breakTo label .absent

/-- A jump that may carry a value, after its keyword. -/
def jumpValue : Parser (Tree (.maybe .expr)) := do
  if atExpr (← ahead) then return .present (← g.expr true) else return .absent

/-- A call that takes the place of the function around it. There is no tree for it. -/
def become : Parser Expr := do
  let (_, tokens) ← asWritten do
    keyword "become"
    g.expr true
  return .rawExpr tokens

/-! ## Operators between expressions -/

/-- The end of a range, if it has one. -/
def rangeStop (struct : Bool) (limits : RangeLimits) : Parser (Tree (.maybe .expr)) := do
  if limits = .halfOpen && atOpenRange struct (← ahead) then return .absent
  return .present (← g.rightSide struct .range)

/-- What may not follow a cast without parentheses, if it comes first. -/
def afterCast? (tokens : List Token) : Option String :=
  let next := skip tokens
  if atDot tokens then
    if atWord "await" next then some (code ".await")
    else if atName next && (atGroup .parenthesis (skip next) || atOp "::" (skip next)) then
      some "a method call"
    else some "a field access"
  else if atOp "?" tokens then some (code "?")
  else if atGroup .bracket tokens then some "indexing"
  else if atGroup .parenthesis tokens then some "a function call"
  else none

/-- One operator after an expression with its right side, if it binds at least as tightly as
`base`. -/
def operation? (struct : Bool) (base : Precedence) (left : Expr) : Parser (Option Expr) := do
  let tokens ← ahead
  if left.isRange then return none
  match binaryOp? tokens with
  | some operator =>
    let precedence := operator.precedence
    if precedence.rank < base.rank then return none
    if precedence = .compare && left.isComparison then throw .chainedComparison
    op operator.text
    return some (.binary operator left (← g.rightSide struct precedence))
  | none =>
    if base.rank ≤ Precedence.assign.rank && atAssign tokens then
      op "="
      return some (.assign left (← g.rightSide struct .assign))
    else if base.rank ≤ Precedence.range.rank && atOp ".." tokens then
      let limits ← rangeLimits
      return some (.range (.present left) limits (← rangeStop g struct limits))
    else if base.rank ≤ Precedence.cast.rank && atWord "as" tokens then
      keyword "as"
      let type ← g.type false
      if let some what := afterCast? (← ahead) then
        broken ("casts cannot be followed by " ++ what)
      return some (.cast left type)
    else return none

/-- An expression with the operators after it that bind at least as tightly as `base`, at most
`bound` of them. -/
def operationsUpTo (struct : Bool) (base : Precedence) : (bound : Nat) → Expr → Parser Expr
  | 0, left => return left
  | bound + 1, left => do
    match ← operation? g struct base left with
    | some left => operationsUpTo struct base bound left
    | none => return left

/-- An expression with the operators after it that bind at least as tightly as `base`. -/
def operations (struct : Bool) (base : Precedence) (left : Expr) : Parser Expr := do
  operationsUpTo g struct base ((← ahead).length + 1) left

/-! ## Atoms -/

/-- An expression without operators before or after it. -/
def atom (struct : Bool) : Parser Expr := do
  let tokens ← ahead
  let next := skip tokens
  if atLiteral tokens then return .literal (← literal)
  else if atWord "async" tokens &&
      (atGroup .brace next || (atWord "move" next && atGroup .brace (skip next))) then
    keyword "async"
    let capture ← keyword? "move"
    return .asyncBlock capture (← block g)
  else if atWord "try" tokens && atGroup .brace next then
    keyword "try"
    return .tryBlock (← block g)
  else if atClosure tokens then closure g struct
  else if atBuiltin tokens then
    let (_, tokens) ← asWritten builtin
    return .rawExpr tokens
  else if atPathName tokens || atOp "::" tokens || atOp "<" tokens ||
      (atWord "try" tokens && (atOp "!" next || atOp "::" next)) then
    pathLikeExpr g struct
  else if atGroup .parenthesis tokens then parenthesized g
  else if atWord "break" tokens then breakTo g struct
  else if ← keyword? "continue" then return .continueTo (← lifetime?)
  else if ← keyword? "return" then return .returnWith (← jumpValue g)
  else if atWord "become" tokens then become g
  else if atGroup .bracket tokens then array g
  else if ← keyword? "let" then
    let pat ← alternativePats g
    op "="
    return .letIn pat (← operations g struct .compare (← g.operand struct))
  else if atWord "if" tokens then ifThen g
  else if atWord "while" tokens then whileLoop g none
  else if atWord "for" tokens then forLoop g none
  else if atWord "loop" tokens then loop g none
  else if atWord "match" tokens then matchOn g
  else if ← keyword? "yield" then return .yieldWith (← jumpValue g)
  else if ← keyword? "unsafe" then return .unsafeBlock (← attributedBlock g)
  else if ← keyword? "const" then return .constBlock (← attributedBlock g)
  else if atGroup .brace tokens then return .blockExpr none (← attributedBlock g)
  else if atOp ".." tokens then
    let limits ← rangeLimits
    return .range .absent limits (← rangeStop g struct limits)
  else if ← keyword? "_" then return .infer
  else if atLifetime tokens then labeled g
  else expected ["an expression"]

/-! ## What follows an atom -/

/-- The numbers of the fields that a float such as `0.1` after a dot names, and whether it ends with
a dot. -/
def fieldNumbers (text : String) (negative : Bool) : Parser (List Nat × Bool) := do
  let parts := text.splitOn "."
  let trailing := parts.getLast? = some ""
  let parts := if trailing then parts.dropLast else parts
  let numbers ← parts.zipIdx.mapM fun (part, i) => fieldNumber part (negative && i = 0)
  return (numbers, trailing)

/-- How the numbers of fields are written, each after the dot of the one before. -/
def numbersWritten (numbers : List Nat) (trailing : Bool) : List Token :=
  let literals := numbers.map fun number => [Token.literal (toString number)]
  (literals.intersperse (Code.op ".")).flatten ++ if trailing then Code.op "." else []

/-- A field or a method of an expression, after the dot. -/
def fieldOrMethod (base : Expr) : Parser Expr := do
  if ← keyword? "await" then return .await base
  let member ← member
  match member with
  | .numbered _ => return .field base member
  | .named method =>
    let turbofish ←
      if atOp "::" (← ahead) then do
        op "::"
        pure (some (Tree.ofList (← angledArgs g)))
      else pure none
    if turbofish.isSome || atGroup .parenthesis (← ahead) then
      return .methodCall base method (.ofOption turbofish) (.ofList (← callArgs g))
    return .field base member

/-- What follows the dot after an expression. -/
def afterDot (base : Expr) : Parser Expr := do
  match number? (← ahead) with
  | none => fieldOrMethod g base
  | some (text, negative) =>
    if (integer? text).isSome then return ← fieldOrMethod g base
    let (numbers, trailing) ← fieldNumbers text negative
    let _ ← writtenAs (numbersWritten numbers trailing) literal
    let base := numbers.foldl (fun base number => .field base (.numbered number)) base
    if trailing then fieldOrMethod g base else return base

/-- One thing that follows an expression: arguments, a field or method, an index or a question
mark. -/
def trailer? (base : Expr) : Parser (Option Expr) := do
  let tokens ← ahead
  if atGroup .parenthesis tokens then return some (.call base (.ofList (← callArgs g)))
  else if atDot tokens && !base.isRange then
    op "."
    return some (← afterDot g base)
  else if atGroup .bracket tokens then
    return some (.index base (← inside .bracket (g.expr true)))
  else if atOp "?" tokens && !base.isRange then
    op "?"
    return some (.question base)
  else return none

/-- An expression with all that follows it, at most `bound` things. -/
def trailersUpTo : (bound : Nat) → Expr → Parser Expr
  | 0, base => return base
  | bound + 1, base => do
    match ← trailer? g base with
    | some base => trailersUpTo bound base
    | none => return base

/-- An expression with all that follows it. -/
def trailers (base : Expr) : Parser Expr := do
  trailersUpTo g ((← ahead).length + 1) base

/-! ## Operators -/

/-- An expression with operators before it, after its attributes. -/
def prefixed (struct : Bool) (attrs : List Attribute) : Parser Expr := do
  let tokens ← ahead
  if ← op? "&" then
    let tokens ← ahead
    let isRaw := atWord "raw" tokens && (atWord "mut" (skip tokens) || atWord "const" (skip tokens))
    if isRaw then keyword "raw"
    let mutable ← keyword? "mut"
    if isRaw && !mutable then keyword "const"
    let expr ← g.operand struct
    return .withAttributes attrs
      (if isRaw then .rawAddress mutable expr else .reference mutable expr)
  else if atOp "*" tokens then
    op "*"
    return .withAttributes attrs (.unary .deref (← g.operand struct))
  else if atOp "!" tokens then
    op "!"
    return .withAttributes attrs (.unary .not (← g.operand struct))
  else if atOp "-" tokens then
    op "-"
    return .withAttributes attrs (.unary .neg (← g.operand struct))
  else
    let expr ← trailers g (← atom g struct)
    if expr.isRaw then return expr
    if !attrs.isEmpty && expr.isRange then
      broken ("attributes are not allowed on range expressions starting with " ++ code "..")
    return .withAttributes attrs expr

/-- An expression without operators between expressions. Attributes before syntax that has no tree
are among its tokens. -/
def readOperand (struct : Bool) : Parser Expr :=
  orRaw .rawExpr do
    let attrs ← outerAttributes g
    let expr ← prefixed g struct attrs
    return if expr.isRaw then none else some expr

/-- Extends the right side of an operator by those that bind tighter, at most `bound` times. -/
def tighterUpTo (struct : Bool) (precedence : Precedence) : (bound : Nat) → Expr → Parser Expr
  | 0, right => return right
  | bound + 1, right => do
    let tokens ← ahead
    let next := nextPrecedence tokens
    if precedence.rank < next.rank || (next = precedence && precedence = .assign) then
      let extended ← operations g struct next right
      if (← ahead).length = tokens.length then return extended
      tighterUpTo struct precedence bound extended
    else return right

/-- The right side of an operator. -/
def readRightSide (struct : Bool) (precedence : Precedence) : Parser Expr := do
  let right ← readOperand g struct
  tighterUpTo g struct precedence ((← ahead).length + 1) right

/-- A whole expression. -/
def readExpr (struct : Bool) : Parser Expr := do
  let left ← readOperand g struct
  operations g struct .lowest left

/-- An expression that ends early where a statement would: after a block, only a dot or a question
mark goes on. -/
def readLeading : Parser Expr := do
  let attrs ← outerAttributes g
  let tokens ← ahead
  let next := skip tokens
  let blockLike : Option (Parser Expr) :=
    if atWord "if" tokens then some (ifThen g)
    else if atWord "while" tokens then some (whileLoop g none)
    else if atWord "for" tokens && !atGenericParams next then some (forLoop g none)
    else if atWord "loop" tokens then some (loop g none)
    else if atWord "match" tokens then some (matchOn g)
    else if atWord "try" tokens && atGroup .brace next then
      some do
        keyword "try"
        return .tryBlock (← block g)
    else if atWord "unsafe" tokens then
      some do
        keyword "unsafe"
        return .unsafeBlock (← attributedBlock g)
    else if atWord "const" tokens && atGroup .brace next then
      some do
        keyword "const"
        return .constBlock (← attributedBlock g)
    else if atGroup .brace tokens then some do return .blockExpr none (← attributedBlock g)
    else if atLifetime tokens then some (labeled g)
    else none
  match blockLike with
  | none =>
    let left ← readOperand g true
    operations g true .lowest (left.withAttributes attrs)
  | some reader =>
    let expr ← reader
    let tokens ← ahead
    if atDot tokens || atOp "?" tokens then
      let expr ← trailers g expr
      operations g true .lowest (expr.withAttributes attrs)
    else return expr.withAttributes attrs

end Grammar

end ForeignWrap.Syntax
