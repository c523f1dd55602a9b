/-!
# Tokens of code

Code is a list of tokens: words, signs of one character, literals, and delimited groups that hold
tokens again. Comments and spacing are not part of it, but a sign knows whether the next sign
followed it at once, since `::` and `: :` are different code.

## Main definitions

* `ForeignWrap.Code.Token`: a token of code.
* `ForeignWrap.Code.op`: an operator as its signs.
* `ForeignWrap.Code.text`: the text of a list of tokens, one space between neighbours.
-/

namespace ForeignWrap.Code

/-- The three kinds of brackets. -/
inductive Delimiter where
  | parenthesis
  | bracket
  | brace
deriving DecidableEq, Repr

/-- A token of code. A raw word keeps its `r#`, and a literal is kept as it was written. -/
inductive Token where
  | word (text : String)
  | sign (char : Char) (joint : Bool)
  | literal (text : String)
  | group (delimiter : Delimiter) (content : List Token)
deriving Repr

/-! ## Equality -/

mutual

/-- Whether two tokens are the same. -/
def Token.isSame : Token → Token → Bool
  | .word s, .word t => s == t
  | .sign c joint, .sign d joint' => c == d && joint == joint'
  | .literal s, .literal t => s == t
  | .group delimiter content, .group delimiter' content' =>
    delimiter == delimiter' && areSame content content'
  | _, _ => false

/-- Whether two lists of tokens are the same. -/
def areSame : List Token → List Token → Bool
  | [], [] => true
  | s :: rest, t :: rest' => s.isSame t && areSame rest rest'
  | _, _ => false

end

mutual

theorem Token.isSame_iff_eq (s t : Token) : s.isSame t = true ↔ s = t := by
  cases s <;> cases t <;> simp [Token.isSame, areSame_iff_eq]

theorem areSame_iff_eq (s t : List Token) : areSame s t = true ↔ s = t := by
  cases s <;> cases t <;> simp [areSame, Token.isSame_iff_eq, areSame_iff_eq]

end

instance : DecidableEq Token :=
  fun s t => decidable_of_iff _ (Token.isSame_iff_eq s t)

/-! ## Building code -/

/-- The signs of an operator: each is joint with the next, and the last one stands alone. -/
def opSigns : List Char → List Token
  | [] => []
  | [c] => [.sign c false]
  | c :: d :: rest => .sign c true :: opSigns (d :: rest)

/-- An operator such as `::` as its signs. -/
def op (signs : String) : List Token :=
  opSigns signs.toList

/-- A word or keyword. -/
def word (text : String) : List Token :=
  [.word text]

/-- A lifetime: an apostrophe joint with its name. -/
def lifetime (name : String) : List Token :=
  [.sign '\'' true, .word name]

/-- Code between parentheses. -/
def parens (content : List Token) : List Token :=
  [.group .parenthesis content]

/-- Code between square brackets. -/
def brackets (content : List Token) : List Token :=
  [.group .bracket content]

/-- Code between curly braces. -/
def braces (content : List Token) : List Token :=
  [.group .brace content]

/-- Several pieces of code with a separator between neighbours. -/
def separated (separator : List Token) : List (List Token) → List Token
  | [] => []
  | [piece] => piece
  | piece :: next :: rest => piece ++ separator ++ separated separator (next :: rest)

/-! ## Text -/

/-- What a group is written after. An open brace has a space of its own. -/
def Delimiter.openText : Delimiter → String
  | .parenthesis => "("
  | .bracket => "["
  | .brace => "\x7b "

/-- What a group that holds tokens is written before. -/
def Delimiter.closeText : Delimiter → String
  | .parenthesis => ")"
  | .bracket => "]"
  | .brace => " \x7d"

/-- What an empty group is written as. -/
def Delimiter.emptyText : Delimiter → String
  | .parenthesis => "()"
  | .bracket => "[]"
  | .brace => "\x7b \x7d"

/-- Whether the next token is written without a space. -/
def Token.isJoint : Token → Bool
  | .sign _ joint => joint
  | _ => false

mutual

/-- The pieces of text that a token is written as. -/
def Token.pieces : Token → List String
  | .word text => [text]
  | .sign c _ => [String.singleton c]
  | .literal text => [text]
  | .group delimiter [] => [delimiter.emptyText]
  | .group delimiter (t :: rest) =>
    delimiter.openText :: (piecesOf (t :: rest) ++ [delimiter.closeText])

/-- The pieces of text that a list of tokens is written as, spaces included. -/
def piecesOf : List Token → List String
  | [] => []
  | [t] => t.pieces
  | t :: next :: rest =>
    t.pieces ++ (if t.isJoint then piecesOf (next :: rest) else " " :: piecesOf (next :: rest))

end

/-- The text of a list of tokens: one space between neighbours, none after a joint sign. -/
def text (tokens : List Token) : String :=
  String.join (piecesOf tokens)

mutual

/-- How many tokens a token is, with everything that it holds. -/
def Token.size : Token → Nat
  | .group _ content => sizeOf content + 1
  | _ => 1

/-- How many tokens a list holds, the tokens inside groups included. -/
def sizeOf : List Token → Nat
  | [] => 0
  | t :: rest => t.size + sizeOf rest

end

end ForeignWrap.Code
