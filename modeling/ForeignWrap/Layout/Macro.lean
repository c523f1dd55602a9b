import ForeignWrap.Layout.Draft
import ForeignWrap.Syntax.Tree

/-!
# Layout of macros

The argument of a macro is any code, so its layout goes by tokens alone: which of them have a space
before them hangs on the few tokens before.

## Main definitions

* `ForeignWrap.Layout.macroTokens`: the tokens of an argument.
* `ForeignWrap.Layout.macroRules`: the definition of a macro by rules.
* `ForeignWrap.Layout.macroCall`: a use of a macro.
-/

namespace ForeignWrap.Layout

open Code (Delimiter Token)
open Syntax (MacroCall NamePath)

/-! ## Tokens -/

/-- What a group begins with. -/
def opening : Delimiter → String
  | .parenthesis => "("
  | .bracket => "["
  | .brace => "\x7b"

/-- What a group ends with. -/
def closing : Delimiter → String
  | .parenthesis => ")"
  | .bracket => "]"
  | .brace => "\x7d"

/-- The words that have a space on both sides. -/
def spacedWords : List String :=
  ["as", "async", "await", "box", "break", "const", "continue", "crate", "dyn", "else", "enum",
    "extern", "fn", "for", "if", "impl", "in", "let", "loop", "macro", "match", "mod", "move",
    "mut", "pub", "ref", "return", "static", "struct", "trait", "type", "unsafe", "use", "where",
    "while", "yield"]

/-- What the tokens before mean for the next one. -/
inductive Context where
  | start
  | dollar
  | dollarName
  | dollarNameColon
  | dollarCrate
  | dollarGroup
  | dollarGroupSeparator
  | pound
  | poundBang
  | dot
  | colon
  | colons
  | name
  | nameBang
  | closed
  | other
deriving DecidableEq

/-- Whether a token has a space before it, and what it means for the one after it. A `matcher` is
the left side of a rule. -/
def Context.next (matcher : Bool) : Context → Token → Bool × Context
  | .dollar, .word w =>
    (false, if matcher then .dollarName else if w = "crate" then .dollarCrate else .other)
  | .dollarName, .sign ':' false => (false, .dollarNameColon)
  | .dollarNameColon, .word _ => (false, .other)
  | .dollarGroup, .sign '+' false => (false, .other)
  | .dollarGroup, .sign '*' false => (false, .other)
  | .dollarGroup, .sign '?' false => (false, .other)
  | .dollarGroup, .word _ => (false, .dollarGroupSeparator)
  | .dollarGroup, .literal _ => (false, .dollarGroupSeparator)
  | .dollarGroup, .sign _ true => (false, .dollarGroup)
  | .dollarGroup, .sign _ false => (false, .dollarGroupSeparator)
  | .dollarGroupSeparator, .sign '+' _ => (false, .other)
  | .dollarGroupSeparator, .sign '*' _ => (false, .other)
  | .pound, .sign '!' _ => (false, .poundBang)
  | .dollar, .group .parenthesis _ => (false, .dollarGroup)
  | .pound, .group .bracket _ => (false, .other)
  | .poundBang, .group .bracket _ => (false, .other)
  | .name, .group .parenthesis _ => (false, .closed)
  | .name, .group .bracket _ => (false, .closed)
  | .name, .sign '!' false => (false, .nameBang)
  | .nameBang, .group .parenthesis _ => (false, .other)
  | .nameBang, .group .bracket _ => (false, .other)
  | .colon, .sign ':' _ => (false, .colons)
  | _, .group .brace _ => (true, .other)
  | _, .group _ _ => (true, .closed)
  | context, .word w =>
    if w ∈ spacedWords then (true, .other) else (context ≠ .dot && context ≠ .colons, .name)
  | context, .literal _ => (context ≠ .dot, .name)
  | context, .sign c joint =>
    if c = ',' || c = ';' then (false, .other)
    else if c = '.' && !matcher then (context ≠ .name && context ≠ .closed, .dot)
    else if c = ':' && joint then (context ≠ .name && context ≠ .dollarCrate, .colon)
    else if c = '$' then (true, .dollar)
    else if c = '#' then (true, .pound)
    else (true, .other)

/-- Whether the next token follows without a gap. -/
def holdsNext : Token → Bool
  | .sign c joint => joint || c = '$'
  | _ => false

/-- Whether a token is a dot, before which a line may end. -/
def isDot : Token → Bool
  | .sign '.' _ => true
  | _ => false

mutual

/-- A token without the gap before it. -/
def macroToken (matcher : Bool) : Token → Draft
  | .word w => text w
  | .sign c _ => text (String.singleton c)
  | .literal s => text s
  | .group delimiter content => do
    text (opening delimiter)
    if delimiter = .brace && !content.isEmpty then space
    macroTokensFrom matcher .start true content
    if delimiter = .brace && !content.isEmpty then space
    text (closing delimiter)

/-- The tokens after those that made up the `context`. No gap comes next if they are `held`. -/
def macroTokensFrom (matcher : Bool) (context : Context) (held : Bool) : List Token → Draft
  | [] => pure ()
  | token :: rest => do
    let (spaced, after) := context.next matcher token
    if !held then
      if spaced then space else if isDot token then mayEnd
    macroToken matcher token
    macroTokensFrom matcher after (holdsNext token) rest

end

/-- The tokens of an argument, or of one side of a rule. -/
def macroTokens (matcher : Bool) (tokens : List Token) : Draft :=
  macroTokensFrom matcher .start true tokens

/-! ## Macros -/

/-- Code in a block of its own, with a gap before and after it. -/
def inBlock (edge : Draft) (content : Draft) : Draft :=
  block indentStep do
    edge
    flow 0 content
    edge
    outdent

/-- The left side of a rule, in its own brackets. -/
def matcher (delimiter : Delimiter) (content : List Token) : Draft := do
  text (opening delimiter)
  if !content.isEmpty then inBlock mayEnd (macroTokens true content)
  text (closing delimiter)

/-- A rule of a macro. Braces stand around its right side, whatever they were. -/
def macroRule (delimiter : Delimiter) (left right : List Token) : Draft := do
  matcher delimiter left
  text " => \x7b"
  goOn
  if !right.isEmpty then inBlock newline (macroTokens false right)
  text "\x7d;"
  newline

/-- Rules of a macro with semicolons between them, the last of which may be incomplete. Nothing else
can be written as rules. -/
def macroRulesFrom : List Token → Draft
  | [] => pure ()
  | [.group delimiter left] => do
    matcher delimiter left
    newline
  | [.group delimiter left, .sign '=' true] => do
    matcher delimiter left
    text " ="
    newline
  | [.group delimiter left, .sign '=' true, .sign '>' false] => do
    matcher delimiter left
    text " =>"
    newline
  | [.group delimiter left, .sign '=' true, .sign '>' false, .group _ right] =>
    macroRule delimiter left right
  | .group delimiter left :: .sign '=' true :: .sign '>' false :: .group _ right ::
      .sign ';' false :: rest => do
    macroRule delimiter left right
    macroRulesFrom rest
  | _ => throw .macroRules

/-- The definition of a macro by rules. -/
def macroRules (name : String) (content : List Token) : Draft := do
  text "macro_rules! "
  text name
  text " \x7b"
  block indentStep do
    newlineIfMore
    macroRulesFrom content
    outdent
  text "\x7d"

/-- The text of a path of names. -/
def pathText (path : NamePath) : String :=
  (if path.rooted then "::" else "") ++ String.intercalate "::" path.names

/-- A use of a macro, with the semicolon after it if it has one. -/
def macroCall (call : MacroCall) (name : Option String) (semicolon : Bool) : Draft := do
  match call.path.isName "macro_rules", name with
  | true, some name => macroRules name call.content
  | _, _ =>
    text (pathText call.path)
    text "!"
    if let some name := name then
      text " "
      text name
    text (if call.delimiter = .brace then " \x7b" else opening call.delimiter)
    if !call.content.isEmpty then
      inBlock (if call.delimiter = .brace then newline else mayEnd)
        (macroTokens false call.content)
    text (closing call.delimiter)
    if semicolon then text ";"

end ForeignWrap.Layout
