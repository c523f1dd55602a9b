import ForeignWrap.Text.Identifier

/-!
# The extent of literals

Where a literal that begins a text ends. Each scanner takes the characters that follow and answers
those after the literal, or nothing if no literal of its kind begins here.

## Main definitions

* `ForeignWrap.Code.afterWord?`: what follows an unraw word.
* `ForeignWrap.Code.QuoteForm`: what may stand between the quotes of a kind of string.
* `ForeignWrap.Code.afterLiteral?`: what follows a literal of any kind.
-/

namespace ForeignWrap.Code

open Text

/-- What follows the word that `cs` begins with. -/
def afterWord? : List Char → Option (List Char)
  | [] => none
  | c :: cs => if isIdentStart c then some (cs.dropWhile isIdentContinue) else none

/-- What follows a literal's suffix, which is any word that touches it. -/
def afterSuffix (cs : List Char) : List Char :=
  (afterWord? cs).getD cs

/-- Whether a word could not go on at the start of `cs`. -/
def atWordBreak (cs : List Char) : Bool :=
  !(cs.head?.any isIdentContinue)

/-! ## Escapes -/

/-- The value of a hexadecimal digit. -/
def hexValue? (c : Char) : Option Nat :=
  if '0' ≤ c ∧ c ≤ '9' then some (c.toNat - '0'.toNat)
  else if 'a' ≤ c ∧ c ≤ 'f' then some (c.toNat - 'a'.toNat + 10)
  else if 'A' ≤ c ∧ c ≤ 'F' then some (c.toNat - 'A'.toNat + 10)
  else none

/-- The two digits of a `\x` escape and what follows them. -/
def hexPair? : List Char → Option (Nat × List Char)
  | c :: d :: rest => do
    let high ← hexValue? c
    let low ← hexValue? d
    return (high * 16 + low, rest)
  | _ => none

/-- Whether a number is the code point of a character. -/
def isScalar (n : Nat) : Bool :=
  n < 0xD800 || (0xE000 ≤ n && n < 0x110000)

/-- The digits of a `\u` escape after its open brace: at most six, with underscores after the
first, up to the closing brace. -/
def unicodeDigits? (value count : Nat) : List Char → Option (Nat × List Char)
  | [] => none
  | c :: rest =>
    if c = '_' && 0 < count then unicodeDigits? value count rest
    else if c = '\x7d' && 0 < count then
      if isScalar value then some (value, rest) else none
    else
      match hexValue? c with
      | some digit =>
        if count = 6 then none else unicodeDigits? (value * 16 + digit) (count + 1) rest
      | none => none

/-- The value of a `\u` escape and what follows it. -/
def unicodeEscape? : List Char → Option (Nat × List Char)
  | '\x7b' :: rest => unicodeDigits? 0 0 rest
  | _ => none

/-- What follows the white space of a line that a backslash has ended. A carriage return needs its
line feed, and the text may not end here. -/
def afterLineGap? : List Char → Option (List Char)
  | [] => none
  | '\r' :: '\n' :: rest => afterLineGap? rest
  | '\r' :: _ => none
  | c :: rest => if c = ' ' || c = '\t' || c = '\n' then afterLineGap? rest else some (c :: rest)

/-! ## Strings -/

/-- What may stand between the quotes of a kind of string. -/
structure QuoteForm where
  /-- Whether a character may stand for itself. -/
  allows : Char → Bool
  /-- Whether a `\x` escape may have this value. -/
  allowsHex : Nat → Bool
  /-- Whether there are `\u` escapes, and of which values. -/
  allowsUnicode : Nat → Bool
  /-- Whether NUL has the escape `\0`. -/
  hasNulEscape : Bool

/-- Strings of characters: every character, and `\x` escapes of the ASCII range. -/
def QuoteForm.text : QuoteForm :=
  ⟨fun _ => true, (· < 0x80), fun _ => true, true⟩

/-- Strings of bytes: ASCII characters, every `\x` escape and no `\u` escape. -/
def QuoteForm.bytes : QuoteForm :=
  ⟨(·.toNat < 0x80), fun _ => true, fun _ => false, true⟩

/-- Strings that NUL ends, which therefore may not hold one. -/
def QuoteForm.nulEnded : QuoteForm :=
  ⟨(· ≠ '\x00'), (· ≠ 0), (· ≠ 0), false⟩

/-- What follows an escape, given what follows its backslash. -/
def QuoteForm.afterEscape? (form : QuoteForm) : List Char → Option (List Char)
  | [] => none
  | 'x' :: rest => do
    let (value, rest) ← hexPair? rest
    if form.allowsHex value then some rest else none
  | 'u' :: rest => do
    let (value, rest) ← unicodeEscape? rest
    if form.allowsUnicode value then some rest else none
  | '0' :: rest => if form.hasNulEscape then some rest else none
  | '\n' :: rest => afterLineGap? ('\n' :: rest)
  | '\r' :: rest => afterLineGap? ('\r' :: rest)
  | c :: rest => if c ∈ ['n', 'r', 't', '\\', '\'', '"'] then some rest else none

/-- What follows a string, given what follows its open quote. Each step takes at least one
character, so `fuel` at their number is enough. -/
def QuoteForm.afterQuoted? (form : QuoteForm) : (fuel : Nat) → List Char → Option (List Char)
  | _, [] => none
  | 0, _ => none
  | _ + 1, '"' :: rest => some (afterSuffix rest)
  | fuel + 1, '\r' :: '\n' :: rest => form.afterQuoted? fuel rest
  | _ + 1, '\r' :: _ => none
  | fuel + 1, '\\' :: rest => do form.afterQuoted? fuel (← form.afterEscape? rest)
  | fuel + 1, c :: rest => if form.allows c then form.afterQuoted? fuel rest else none

/-- The characters after `count` hash signs, if that many come next. -/
def afterHashes? : (count : Nat) → List Char → Option (List Char)
  | 0, cs => some cs
  | count + 1, '#' :: cs => afterHashes? count cs
  | _ + 1, _ => none

/-- What follows a raw string of `hashes` hash signs, given what follows its open quote. -/
def QuoteForm.afterRawBody? (form : QuoteForm) (hashes : Nat) : List Char → Option (List Char)
  | [] => none
  | '\r' :: '\n' :: rest => form.afterRawBody? hashes rest
  | '\r' :: _ => none
  | '"' :: rest =>
    match afterHashes? hashes rest with
    | some after => some (afterSuffix after)
    | none => form.afterRawBody? hashes rest
  | c :: rest => if form.allows c then form.afterRawBody? hashes rest else none

/-- What follows a raw string, given what follows its `r`: at most 255 hash signs, the body, and as
many again. -/
def QuoteForm.afterRaw? (form : QuoteForm) (cs : List Char) : Option (List Char) :=
  let hashes := (cs.takeWhile (· = '#')).length
  match cs.dropWhile (· = '#') with
  | '"' :: rest => if hashes ≤ 255 then form.afterRawBody? hashes rest else none
  | _ => none

/-- What follows a quoted string in a form, given what follows its open quote. -/
def QuoteForm.afterString? (form : QuoteForm) (cs : List Char) : Option (List Char) :=
  form.afterQuoted? cs.length cs

/-! ## Single characters -/

/-- What follows the closing apostrophe and the suffix of a character or byte. -/
def afterApostrophe? : List Char → Option (List Char)
  | '\'' :: rest => some (afterSuffix rest)
  | _ => none

/-- What follows a character or byte in a form, given what follows its open apostrophe. Between the
apostrophes stands an escape or any one character. -/
def QuoteForm.afterChar? (form : QuoteForm) : List Char → Option (List Char)
  | [] => none
  | '\\' :: '\n' :: _ => none
  | '\\' :: '\r' :: _ => none
  | '\\' :: rest => do afterApostrophe? (← form.afterEscape? rest)
  | c :: rest => if form.allows c then afterApostrophe? rest else none

/-! ## Numbers -/

/-- What follows a number's suffix, if no further word touches it. -/
def afterNumberSuffix? (cs : List Char) : Option (List Char) :=
  let rest := afterSuffix cs
  if atWordBreak rest then some rest else none

/-- The digits and the point of a float after its first digit: whether a point and whether an
exponent's letter was read, and what follows. A point before a second point or a word belongs to
the operator or member that follows, and then this is no float. -/
def mantissa? (hasPoint : Bool) : List Char → Option (Bool × Bool × List Char)
  | [] => some (hasPoint, false, [])
  | c :: rest =>
    if c.isDigit || c = '_' then mantissa? hasPoint rest
    else if c = '.' && !hasPoint then
      if rest.head?.any fun d => d = '.' || isIdentStart d then none else mantissa? true rest
    else if c = 'e' || c = 'E' then some (hasPoint, true, rest)
    else some (hasPoint, false, c :: rest)

/-- What follows an exponent after its letter: one sign at most, before the digits. Without digits
it is none. -/
def afterExponent? (hasSign hasValue : Bool) : List Char → Option (List Char)
  | [] => if hasValue then some [] else none
  | c :: rest =>
    if c = '+' || c = '-' then
      if hasValue then some (c :: rest)
      else if hasSign then none
      else afterExponent? true hasValue rest
    else if c.isDigit then afterExponent? hasSign true rest
    else if c = '_' then afterExponent? hasSign hasValue rest
    else if hasValue then some (c :: rest) else none

/-- The last characters of `cs`, one more of them than `rest` has. -/
def oneBefore (cs rest : List Char) : List Char :=
  cs.drop (cs.length - (rest.length + 1))

/-- What follows the digits, point and exponent of a float. An exponent's letter without digits
is left to the suffix, if there is a point. -/
def afterFloatDigits? : List Char → Option (List Char)
  | [] => none
  | c :: cs =>
    if !c.isDigit then none
    else
      match mantissa? false cs with
      | none => none
      | some (hasPoint, hasExponent, rest) =>
        if hasExponent then
          match afterExponent? false false rest with
          | some after => some after
          | none => if hasPoint then some (oneBefore cs rest) else none
        else if hasPoint then some rest
        else none

/-- What follows a float. -/
def afterFloat? (cs : List Char) : Option (List Char) := do
  afterNumberSuffix? (← afterFloatDigits? cs)

/-- What follows the digits of an integer in a base. A decimal digit past the base is refused, a
letter past it begins the suffix, and a decimal integer may not begin with an underscore. -/
def afterDigits? (base : Nat) (empty : Bool) : List Char → Option (List Char)
  | [] => if empty then none else some []
  | c :: rest =>
    if c.isDigit then
      if c.toNat - '0'.toNat < base then afterDigits? base false rest else none
    else if c = '_' then
      if empty && base = 10 then none else afterDigits? base empty rest
    else
      match hexValue? c with
      | some digit =>
        if digit < base then afterDigits? base false rest
        else if empty then none else some (c :: rest)
      | none => if empty then none else some (c :: rest)

/-- What follows an integer. -/
def afterInteger? (cs : List Char) : Option (List Char) := do
  let rest ←
    match cs with
    | '0' :: 'x' :: rest => afterDigits? 16 true rest
    | '0' :: 'o' :: rest => afterDigits? 8 true rest
    | '0' :: 'b' :: rest => afterDigits? 2 true rest
    | cs => afterDigits? 10 true cs
  afterNumberSuffix? rest

/-! ## Every kind -/

/-- What follows a string literal, given the whole. -/
def afterTextString? : List Char → Option (List Char)
  | '"' :: rest => QuoteForm.text.afterString? rest
  | 'r' :: rest => QuoteForm.text.afterRaw? rest
  | _ => none

/-- What follows a byte string. -/
def afterByteString? : List Char → Option (List Char)
  | 'b' :: '"' :: rest => QuoteForm.bytes.afterString? rest
  | 'b' :: 'r' :: rest => QuoteForm.bytes.afterRaw? rest
  | _ => none

/-- What follows a string that NUL ends. -/
def afterNulString? : List Char → Option (List Char)
  | 'c' :: '"' :: rest => QuoteForm.nulEnded.afterString? rest
  | 'c' :: 'r' :: rest => QuoteForm.nulEnded.afterRaw? rest
  | _ => none

/-- What follows a byte. -/
def afterByte? : List Char → Option (List Char)
  | 'b' :: '\'' :: rest => QuoteForm.bytes.afterChar? rest
  | _ => none

/-- What follows a character. -/
def afterCharacter? : List Char → Option (List Char)
  | '\'' :: rest => QuoteForm.text.afterChar? rest
  | _ => none

/-- What follows the literal that `cs` begins with. The kinds are tried in turn. -/
def afterLiteral? (cs : List Char) : Option (List Char) :=
  afterTextString? cs <|> afterByteString? cs <|> afterNulString? cs <|> afterByte? cs <|>
    afterCharacter? cs <|> afterFloat? cs <|> afterInteger? cs

end ForeignWrap.Code
