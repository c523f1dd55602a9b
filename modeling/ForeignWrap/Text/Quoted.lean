import ForeignWrap.Text.Printable

/-!
# Quoted text

Text between double quotes, with escapes. The quoted form appears in messages, and with one more
rule as a string literal of generated code.

## Main definitions

* `ForeignWrap.Text.escape`: the escape of one character, or the character itself.
* `ForeignWrap.Text.quote`: a text as messages show it.
* `ForeignWrap.Text.stringLiteral`: a text as a string literal.
-/

namespace ForeignWrap.Text

/-- The digits of `n` in base sixteen, in lower case. -/
def hexDigits (n : Nat) : List Char :=
  Nat.toDigits 16 n

/-- One character between double quotes: the quote, the backslash and the usual controls have short
escapes, what has no glyph of its own is written as its code point, and the apostrophe stays. -/
def escape (c : Char) : List Char :=
  match c with
  | '\x00' => ['\\', '0']
  | '\t' => ['\\', 't']
  | '\r' => ['\\', 'r']
  | '\n' => ['\\', 'n']
  | '\\' => ['\\', '\\']
  | '"' => ['\\', '"']
  | c =>
    if extendsGrapheme c || !isPrintable c then
      ['\\', 'u', '\x7b'] ++ hexDigits c.toNat ++ ['\x7d']
    else [c]

/-- A text between double quotes, each character escaped on its own. -/
def quote (s : String) : String :=
  String.ofList ('"' :: s.toList.flatMap escape ++ ['"'])

/-- Escapes for a string literal. A NUL before an octal digit is written in two digits: `\0` and the
digit would read as one octal escape elsewhere. -/
def escapeLiteral : List Char → List Char
  | [] => []
  | c :: rest =>
    (if c = '\x00' && (rest.head?.any fun d => '0' ≤ d && d ≤ '7') then ['\\', 'x', '0', '0']
      else escape c) ++ escapeLiteral rest

/-- A text as a string literal of code. -/
def stringLiteral (s : String) : String :=
  String.ofList ('"' :: escapeLiteral s.toList ++ ['"'])

end ForeignWrap.Text
