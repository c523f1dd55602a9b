import ForeignWrap.Code.Literal

/-!
# What literals mean

Most literals are only copied. Where their meaning counts it is the number of a tuple's field, or
the text of a documentation attribute.

## Main definitions

* `ForeignWrap.Syntax.integer?`: the value and the suffix of an integer.
* `ForeignWrap.Syntax.textValue?`: the text that a string literal stands for.
-/

namespace ForeignWrap.Syntax

open Code Text

/-! ## Integers -/

/-- Whether the letter of an exponent begins a float: digits follow it, and then nothing or a
suffix. -/
def isExponent (seen : Bool) : List Char → Bool
  | [] => seen
  | c :: rest =>
    if c = '_' then isExponent seen rest
    else if c = '-' || c = '+' then true
    else if c.isDigit then isExponent true rest
    else seen && isIdentStart c

/-- The value of the digits of an integer and what follows them, or nothing if they are not digits
of the base or belong to a float. -/
def digitsValue? (base : Nat) (value : Nat) (seen : Bool) : List Char → Option (Nat × List Char)
  | [] => if seen then some (value, []) else none
  | c :: rest =>
    if c = '_' then digitsValue? base value seen rest
    else if base = 10 && c = '.' then none
    else if base = 10 && (c = 'e' || c = 'E') then
      if isExponent false rest || !seen then none else some (value, c :: rest)
    else if c.isDigit || base > 10 then
      match hexValue? c with
      | some digit =>
        if digit < base then digitsValue? base (value * base + digit) true rest else none
      | none => if seen then some (value, c :: rest) else none
    else if seen then some (value, c :: rest) else none

/-- The value and the suffix of an integer. -/
def integer? (text : String) : Option (Nat × String) := do
  let (value, rest) ←
    match text.toList with
    | '0' :: 'x' :: rest => digitsValue? 16 0 false rest
    | '0' :: 'o' :: rest => digitsValue? 8 0 false rest
    | '0' :: 'b' :: rest => digitsValue? 2 0 false rest
    | c :: rest => if c.isDigit then digitsValue? 10 0 false (c :: rest) else none
    | [] => none
  if rest.isEmpty || afterWord? rest = some [] then some (value, String.ofList rest) else none

/-! ## Strings -/

/-- The white space at the start of a line that a backslash has continued. -/
def dropContinuation (cs : List Char) : List Char :=
  cs.dropWhile fun c => c = ' ' || c = '\t' || c = '\n' || c = '\r'

/-- The characters of a quoted string up to its closing quote. Each step takes at least one
character, so `fuel` at their number is enough. -/
def unescape? : (fuel : Nat) → List Char → Option (List Char)
  | 0, _ => none
  | _ + 1, [] => none
  | _ + 1, '"' :: _ => some []
  | fuel + 1, '\r' :: '\n' :: rest => (unescape? fuel rest).map ('\n' :: ·)
  | fuel + 1, '\\' :: rest =>
    match rest with
    | 'x' :: rest => do
      let (value, rest) ← hexPair? rest
      return Char.ofNat value :: (← unescape? fuel rest)
    | 'u' :: rest => do
      let (value, rest) ← unicodeEscape? rest
      return Char.ofNat value :: (← unescape? fuel rest)
    | 'n' :: rest => (unescape? fuel rest).map ('\n' :: ·)
    | 'r' :: rest => (unescape? fuel rest).map ('\r' :: ·)
    | 't' :: rest => (unescape? fuel rest).map ('\t' :: ·)
    | '0' :: rest => (unescape? fuel rest).map ('\x00' :: ·)
    | '\n' :: rest => unescape? fuel (dropContinuation rest)
    | '\r' :: rest => unescape? fuel (dropContinuation rest)
    | c :: rest => (unescape? fuel rest).map (c :: ·)
    | [] => none
  | fuel + 1, c :: rest => (unescape? fuel rest).map (c :: ·)

/-- The characters of a raw string of `hashes` hash signs up to its closing quote. -/
def rawBody? (hashes : Nat) : List Char → Option (List Char)
  | [] => none
  | '"' :: rest =>
    if (afterHashes? hashes rest).isSome then some [] else (rawBody? hashes rest).map ('"' :: ·)
  | c :: rest => (rawBody? hashes rest).map (c :: ·)

/-- The text that a string literal stands for. -/
def textValue? (literal : String) : Option String :=
  let value :=
    match literal.toList with
    | '"' :: rest => unescape? (rest.length + 1) rest
    | 'r' :: rest =>
      match rest.dropWhile (· = '#') with
      | '"' :: body => rawBody? (rest.takeWhile (· = '#')).length body
      | _ => none
    | _ => none
  value.map String.ofList

end ForeignWrap.Syntax
