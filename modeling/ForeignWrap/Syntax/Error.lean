import ForeignWrap.Code.Token

/-!
# Syntax errors

Why a text is not what its reader asked for. A reader stops at the first token that cannot go on,
and the error says what could have stood there.

## Main definitions

* `ForeignWrap.Syntax.SyntaxError`: the causes.
* `ForeignWrap.Syntax.SyntaxError.message`: their wording.
-/

namespace ForeignWrap.Syntax

open Code (Delimiter)

/-- Why a text is not what its reader asked for. -/
inductive SyntaxError where
  /-- The text is no code at all: its brackets or one of its literals or characters are wrong. -/
  | notCode
  /-- One of the `wanted` things had to come next; `atEnd` if nothing came. -/
  | expected (wanted : List String) (atEnd : Bool)
  /-- A name had to come next, and this keyword came. -/
  | keywordAsName (keyword : String)
  /-- All was read, but tokens were left in a group, or at the end if there is none. -/
  | leftover (inside : Option Delimiter)
  /-- A comparison was compared again. -/
  | chainedComparison
  /-- A trait object has no trait among its bounds. -/
  | objectWithoutTrait
  /-- An `impl` type has no trait among its bounds. -/
  | implWithoutTrait
  /-- A rule that no token alone breaks, in words. -/
  | broken (rule : String)
  /-- The reader was given too little depth. It never is, since each level reads a token. -/
  | tooDeep
deriving DecidableEq, Repr

/-- A keyword or sign, as messages show it. -/
def code (text : String) : String :=
  "`" ++ text ++ "`"

/-- Alternatives in words: none, one, one or the other, or one of several. -/
def alternatives : List String → String
  | [] => ""
  | [a] => "expected " ++ a
  | [a, b] => "expected " ++ a ++ " or " ++ b
  | many => "expected one of: " ++ String.intercalate ", " many

/-- The wording of an error. -/
def SyntaxError.message : SyntaxError → String
  | .notCode => "cannot parse string into token stream"
  | .expected [] atEnd => if atEnd then "unexpected end of input" else "unexpected token"
  | .expected wanted atEnd =>
    (if atEnd then "unexpected end of input, " else "") ++ alternatives wanted
  | .keywordAsName keyword => "expected identifier, found keyword " ++ code keyword
  | .leftover none => "unexpected token"
  | .leftover (some .parenthesis) => "unexpected token, expected " ++ code ")"
  | .leftover (some .bracket) => "unexpected token, expected " ++ code "]"
  | .leftover (some .brace) => "unexpected token, expected " ++ code "\x7d"
  | .chainedComparison => "comparison operators cannot be chained"
  | .objectWithoutTrait => "at least one trait is required for an object type"
  | .implWithoutTrait => "at least one trait must be specified"
  | .broken rule => rule
  | .tooDeep => "nested too deeply"

end ForeignWrap.Syntax
