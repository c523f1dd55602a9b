import ForeignWrap.Code.Lexer
import ForeignWrap.Syntax.Error
import ForeignWrap.Syntax.Tree

/-!
# Readers of tokens

A reader takes tokens from the front of a group's content. Beside its result it keeps the tokens
that the result is written with. They are those that it has taken, with every operator respaced: the
signs of an operator are joint with each other and the last one stands alone, however they were
written. A list that is empty is written without what introduces it, and lifetimes come first in
their list. Only syntax without a tree of its own is kept as it is.

## Main definitions

* `ForeignWrap.Syntax.Input`: the tokens ahead and the tokens taken.
* `ForeignWrap.Syntax.Parser`: a reader.
* `ForeignWrap.Syntax.Parser.inside`: reads the content of a group.
* `ForeignWrap.Syntax.Parser.collect`: reads one thing after another.
* `ForeignWrap.Syntax.Parser.asWritten`, `ForeignWrap.Syntax.Parser.orRaw`: keep syntax without a
  tree as its tokens.
* `ForeignWrap.Syntax.Parser.run`: reads a whole list of tokens.
-/

namespace ForeignWrap.Syntax

open Code (Delimiter Token op)

/-! ## What is ahead -/

/-- The words that are no names. -/
def keywords : List String :=
  ["_", "abstract", "as", "async", "await", "become", "box", "break", "const", "continue",
    "crate", "do", "dyn", "else", "enum", "extern", "false", "final", "fn", "for", "if", "impl",
    "in", "let", "loop", "macro", "match", "mod", "move", "mut", "override", "priv", "pub", "ref",
    "return", "Self", "self", "static", "struct", "super", "trait", "true", "try", "type",
    "typeof", "unsafe", "unsized", "use", "virtual", "where", "while", "yield"]

/-- Whether a word is a name. -/
def isName (text : String) : Bool :=
  text ∉ keywords

/-- Whether any word comes first. -/
def atAnyWord : List Token → Bool
  | .word _ :: _ => true
  | _ => false

/-- Whether this word comes first. -/
def atWord (text : String) : List Token → Bool
  | .word t :: _ => t == text
  | _ => false

/-- Whether a name comes first. -/
def atName : List Token → Bool
  | .word t :: _ => isName t
  | _ => false

/-- What follows an operator, if its signs come first. All but the last must be joint. -/
def afterOp? : List Char → List Token → Option (List Token)
  | [], _ => none
  | [c], .sign d _ :: rest => if c = d then some rest else none
  | c :: next :: cs, .sign d joint :: rest =>
    if c = d && joint then afterOp? (next :: cs) rest else none
  | _, _ => none

/-- Whether an operator comes first. An operator may come first in a longer one. -/
def atOp (signs : String) (tokens : List Token) : Bool :=
  (afterOp? signs.toList tokens).isSome

/-- Whether a group with these brackets comes first. -/
def atGroup (delimiter : Delimiter) : List Token → Bool
  | .group d _ :: _ => d = delimiter
  | _ => false

/-- Whether any group comes first. -/
def atAnyGroup : List Token → Bool
  | .group _ _ :: _ => true
  | _ => false

/-- Whether a lifetime comes first. -/
def atLifetime : List Token → Bool
  | .sign '\'' true :: .word _ :: _ => true
  | _ => false

/-- Whether a literal is a number. -/
def isNumber (text : String) : Bool :=
  text.toList.head?.any Char.isDigit

/-- Whether a value that is written as it is comes first: a literal, a truth value or a negative
number. -/
def atLiteral : List Token → Bool
  | .literal _ :: _ => true
  | .word t :: _ => t == "true" || t == "false"
  | .sign '-' _ :: .literal text :: _ => isNumber text
  | _ => false

/-- Whether a string literal comes first. -/
def atString : List Token → Bool
  | .literal text :: _ =>
    (text.toList.head?.any fun c => c = '"' || c = 'r')
  | _ => false

/-- The tokens after the first one, a lifetime being one token. -/
def skip : List Token → List Token
  | .sign '\'' true :: .word _ :: rest => rest
  | _ :: rest => rest
  | [] => []

/-! ## Readers -/

/-- What a reader works on. -/
structure Input where
  /-- The tokens ahead. -/
  rest : List Token
  /-- The tokens taken, the last one first. -/
  taken : List Token := []
  /-- The brackets of the first group that was left before its end. -/
  leftover : Option Delimiter := none

/-- A reader: it takes tokens from the front, or fails. -/
abbrev Parser := StateT Input (Except SyntaxError)

namespace Parser

/-- The tokens ahead. -/
def ahead : Parser (List Token) := do
  return (← get).rest

/-- Whether no token is ahead. -/
def atEnd : Parser Bool := do
  return (← ahead).isEmpty

/-- Fails because one of these things had to come next. -/
def expected {α : Type} (wanted : List String) : Parser α := do
  throw (.expected wanted (← atEnd))

/-- Fails because a rule is broken. -/
def broken {α : Type} (rule : String) : Parser α :=
  throw (.broken rule)

/-- Goes on with the tokens `rest`, having taken `tokens`. -/
def advance (tokens rest : List Token) : Parser Unit :=
  modify fun input => { input with rest, taken := tokens.reverse ++ input.taken }

/-- Takes an operator. Where it does not come next, the error is at its place, not at the end. -/
def op (signs : String) : Parser Unit := do
  match afterOp? signs.toList (← ahead) with
  | some rest => advance (Code.op signs) rest
  | none => throw (.expected [code signs] false)

/-- Takes an operator if it comes next. -/
def op? (signs : String) : Parser Bool := do
  match afterOp? signs.toList (← ahead) with
  | some rest => advance (Code.op signs) rest; return true
  | none => return false

/-- Takes a keyword. -/
def keyword (text : String) : Parser Unit := do
  match ← ahead with
  | .word t :: rest => if t = text then advance [.word t] rest else expected [code text]
  | _ => expected [code text]

/-- Takes a keyword if it comes next. -/
def keyword? (text : String) : Parser Bool := do
  match ← ahead with
  | .word t :: rest =>
    if t = text then
      advance [.word t] rest
      return true
    else return false
  | _ => return false

/-- Takes a name. -/
def name : Parser String := do
  match ← ahead with
  | .word t :: rest =>
    if isName t then
      advance [.word t] rest
      return t
    else throw (.keywordAsName t)
  | _ => expected ["identifier"]

/-- Takes any word. -/
def anyWord : Parser String := do
  match ← ahead with
  | .word t :: rest => advance [.word t] rest; return t
  | _ => expected ["ident"]

/-- Takes a lifetime. -/
def lifetime : Parser String := do
  match ← ahead with
  | .sign '\'' true :: .word name :: rest => advance (Code.lifetime name) rest; return name
  | _ => expected ["lifetime"]

/-- Takes a lifetime if one comes next. -/
def lifetime? : Parser (Option String) := do
  if atLifetime (← ahead) then return some (← lifetime) else return none

/-- Takes a value that is written as it is. The sign of a number belongs to it. -/
def literal : Parser String := do
  match ← ahead with
  | .literal text :: rest => advance [.literal text] rest; return text
  | .word t :: rest =>
    if t = "true" || t = "false" then
      advance [.word t] rest
      return t
    else expected ["literal"]
  | .sign '-' _ :: .literal text :: rest =>
    if isNumber text then
      advance (Code.op "-" ++ [.literal text]) rest
      return "-" ++ text
    else expected ["literal"]
  | _ => expected ["literal"]

/-- Takes a string literal if one comes next. -/
def string? : Parser (Option String) := do
  if atString (← ahead) then return some (← literal) else return none

/-- What the brackets of a group are called. -/
def groupName : Delimiter → String
  | .parenthesis => "parentheses"
  | .bracket => "square brackets"
  | .brace => "curly braces"

/-- Takes a group and reads its content. Tokens that are left in it are an error in the end, unless
another comes first. -/
def inside {α : Type} (delimiter : Delimiter) (content : Parser α) : Parser α := do
  match ← ahead with
  | .group d tokens :: rest =>
    if d = delimiter then
      let (a, inner) ← content { rest := tokens, leftover := (← get).leftover }
      let leftover := inner.leftover.or (if inner.rest.isEmpty then none else some delimiter)
      modify ({ · with leftover })
      advance [.group d inner.taken.reverse] rest
      return a
    else expected [groupName delimiter]
  | _ => expected [groupName delimiter]

/-- Takes a group of any brackets, whose content is any code. -/
def anyGroup : Parser (Delimiter × List Token) := do
  match ← ahead with
  | .group d tokens :: rest => advance [.group d tokens] rest; return (d, tokens)
  | _ => expected ["delimiter"]

/-- What a reader would do, without taking anything. -/
def attempt {α : Type} (p : Parser α) : Parser (Option (α × Input)) := do
  match p (← get) with
  | .ok result => return some result
  | .error _ => return none

/-- Reads with `p` and answers the tokens that it took beside its result. They count as taken only
if they are given back with `write`. -/
def capture {α : Type} (p : Parser α) : Parser (α × List Token) := do
  let before := (← get).taken
  modify ({ · with taken := [] })
  let a ← p
  let tokens := (← get).taken.reverse
  modify ({ · with taken := before })
  return (a, tokens)

/-- Counts these tokens as taken. -/
def write (tokens : List Token) : Parser Unit :=
  modify fun input => { input with taken := tokens.reverse ++ input.taken }

/-- Reads with `p` and counts `tokens` as taken in place of those that it took. -/
def writtenAs {α : Type} (tokens : List Token) (p : Parser α) : Parser α := do
  let (a, _) ← capture p
  write tokens
  return a

/-- Reads a list with what introduces it. Only a list that is not empty is written. -/
def unlessEmpty {α : Type} (p : Parser (List α)) : Parser (List α) := do
  let (items, tokens) ← capture p
  if !items.isEmpty then write tokens
  return items

/-- Counts what was taken since `start` as taken in the way that it was written, and answers it. -/
def keepFrom (start : Input) : Parser (List Token) := do
  let input ← get
  let tokens := start.rest.take (start.rest.length - input.rest.length)
  set { input with taken := tokens.reverse ++ start.taken }
  return tokens

/-- Reads with `p` and answers the tokens that it took, which count as they were written. -/
def asWritten {α : Type} (p : Parser α) : Parser (α × List Token) := do
  let start ← get
  let a ← p
  return (a, ← keepFrom start)

/-- Reads syntax with `p`. Where it has no tree it is kept as the tokens that it was written
with. -/
def orRaw {α : Type} (raw : List Token → α) (p : Parser (Option α)) : Parser α := do
  let start ← get
  match ← p with
  | some a => return a
  | none => return raw (← keepFrom start)

/-- Reads one thing after another until `step` finds none, at most `bound` of them. -/
def collectUpTo {α : Type} (step : Parser (Option α)) : (bound : Nat) → Parser (List α)
  | 0 => return []
  | bound + 1 => do
    match ← step with
    | none => return []
    | some a => return a :: (← collectUpTo step bound)

/-- Reads one thing after another until `step` finds none. A step that finds something takes a
token, so there are no more of them than tokens ahead. -/
def collect {α : Type} (step : Parser (Option α)) : Parser (List α) := do
  collectUpTo step ((← ahead).length + 1)

/-- Reads things with commas between them up to the end. A comma may follow the last one. -/
def commaList {α : Type} (item : Parser α) : Parser (List α) :=
  collect do
    if ← atEnd then return none
    let a ← item
    if !(← atEnd) then op ","
    return some a

/-- Reads one thing after another up to the end. -/
def untilEnd {α : Type} (item : Parser α) : Parser (List α) :=
  collect do
    if ← atEnd then return none
    return some (← item)

/-- Reads things with a separator between them until `stop` comes next, at most `bound` of them. -/
def chainUpTo {α : Type} (stop : List Token → Bool) (separator : String) (item : Parser α) :
    (bound : Nat) → Parser (List α)
  | 0 => return []
  | bound + 1 => do
    if stop (← ahead) then return []
    let a ← item
    if ← op? separator then return a :: (← chainUpTo stop separator item bound) else return [a]

/-- Reads things with a separator between them until `stop` comes next or a separator is missing. A
separator may follow the last one. -/
def chain {α : Type} (stop : List Token → Bool) (separator : String) (item : Parser α) :
    Parser (List α) := do
  chainUpTo stop separator item ((← ahead).length + 1)

/-- The result of a reader on a list of tokens, of which it must leave none, and the tokens that it
took. -/
def run {α : Type} (p : Parser α) (tokens : List Token) : Except SyntaxError (α × List Token) := do
  let (a, input) ← p { rest := tokens }
  if let some delimiter := input.leftover then throw (.leftover (some delimiter))
  if input.rest.isEmpty then return (a, input.taken.reverse) else throw (.leftover none)

end Parser

/-! ## Readers of a class of syntax -/

/-- How loosely an operator binds. -/
inductive Precedence where
  | lowest
  | assign
  | range
  | or
  | and
  | compare
  | bitOr
  | bitXor
  | bitAnd
  | shift
  | sum
  | product
  | cast
deriving DecidableEq

/-- The place of a precedence in the order from the loosest to the tightest. -/
def Precedence.rank : Precedence → Nat
  | .lowest => 0
  | .assign => 1
  | .range => 2
  | .or => 3
  | .and => 4
  | .compare => 5
  | .bitOr => 6
  | .bitXor => 7
  | .bitAnd => 8
  | .shift => 9
  | .sum => 10
  | .product => 11
  | .cast => 12

/-- Where bounds stand. It decides what they may be beside traits and lifetimes. -/
inductive BoundPlace where
  /-- In a trait object: nothing else. -/
  | object
  /-- On a parameter or an item: traits that are `const`. -/
  | declared
  /-- In an `impl` type: traits that are `const`, and the names that the type captures. -/
  | hidden
deriving DecidableEq

/-- The readers that readers of larger syntax call for the syntax inside. They are called only after
a token has been taken or a group entered, so each level of them reads at least one token. -/
structure Grammar where
  /-- A type; `plus` if further bounds may follow it. -/
  type : (plus : Bool) → Parser Ty
  /-- A bound. -/
  bound : BoundPlace → Parser (Tree .bound)
  /-- A whole expression; `struct` if a path may be followed by the fields of a struct. -/
  expr : (struct : Bool) → Parser Expr
  /-- An expression without operators between expressions. -/
  operand : (struct : Bool) → Parser Expr
  /-- The right side of an operator. -/
  rightSide : (struct : Bool) → Precedence → Parser Expr
  /-- An expression that ends early where a statement would. -/
  leading : Parser Expr
  /-- A pattern without alternatives. -/
  pat : Parser Pat
  /-- The statements of a block. -/
  stmts : Parser (List Stmt)
  /-- A field with a name. -/
  field : Parser (Tree .field)
  /-- An item of a file, module or block. -/
  item : Parser Item
  /-- An item of an impl block. -/
  implItem : Parser Item
  /-- An item of a trait. -/
  traitItem : Parser Item
  /-- An item of an extern block. -/
  externItem : Parser Item

/-- The readers that read nothing. -/
def Grammar.exhausted : Grammar :=
  ⟨fun _ => throw .tooDeep, fun _ => throw .tooDeep, fun _ => throw .tooDeep,
    fun _ => throw .tooDeep, fun _ _ => throw .tooDeep, throw .tooDeep, throw .tooDeep,
    throw .tooDeep, throw .tooDeep, throw .tooDeep, throw .tooDeep, throw .tooDeep,
    throw .tooDeep⟩

end ForeignWrap.Syntax
