/-!
# Reading bytes as UTF-8

## Main definitions

* `ForeignWrap.Text.Utf8Error`: where a byte sequence stops being UTF-8, and how.
* `ForeignWrap.Text.decodeUtf8`: the text of a byte sequence.
-/

namespace ForeignWrap.Text

/-- The place where a byte sequence is not UTF-8: everything before `index` is. `invalid n` says
that the `n` bytes there cannot begin any character, `incomplete` that the input ends inside one. -/
inductive Utf8Error where
  | invalid (index : Nat) (length : Nat)
  | incomplete (index : Nat)
deriving DecidableEq, Repr

/-- The text that reports a decoding error. -/
def Utf8Error.message : Utf8Error → String
  | .invalid index length =>
    "invalid utf-8 sequence of " ++ toString length ++ " bytes from index " ++ toString index
  | .incomplete index => "incomplete utf-8 byte sequence from index " ++ toString index

/-- Whether `b` continues a character. -/
def isContinuation (b : Nat) : Bool :=
  0x80 ≤ b && b < 0xC0

/-- How many bytes the character that begins with `b` takes; none begins with any other byte. -/
def sequenceLength? (b : Nat) : Option Nat :=
  if b < 0x80 then some 1
  else if 0xC2 ≤ b && b ≤ 0xDF then some 2
  else if 0xE0 ≤ b && b ≤ 0xEF then some 3
  else if 0xF0 ≤ b && b ≤ 0xF4 then some 4
  else none

/-- Whether `second` may follow `first`: besides being a continuation it must not make a longer
form than needed, a surrogate, or a code point past the last one. -/
def secondByteOk (first second : Nat) : Bool :=
  isContinuation second &&
    (first != 0xE0 || 0xA0 ≤ second) && (first != 0xED || second < 0xA0) &&
    (first != 0xF0 || 0x90 ≤ second) && (first != 0xF4 || second < 0x90)

/-- The bytes of one character after `first`, `needed` of them, `taken` being already read. -/
def continuationBytes (index : Nat) (first : Nat) :
    (needed taken : Nat) → List Nat → Except Utf8Error (List Nat × List Nat)
  | 0, _, bytes => .ok ([], bytes)
  | _ + 1, _, [] => .error (.incomplete index)
  | needed + 1, taken, b :: bytes =>
    if (if taken = 1 then secondByteOk first b else isContinuation b) then
      (continuationBytes index first needed (taken + 1) bytes).map fun (more, rest) =>
        (b :: more, rest)
    else .error (.invalid index taken)

/-- The code point that a character's first byte and its continuation bytes spell. -/
def codePoint (first : Nat) (continuation : List Nat) : Nat :=
  let lead :=
    match continuation.length with
    | 0 => first
    | 1 => first % 0x20
    | 2 => first % 0x10
    | _ => first % 0x08
  continuation.foldl (fun value b => value * 0x40 + b % 0x40) lead

/-- The characters of a byte sequence whose first byte has the given index. One character takes at
least one byte, so `fuel` at the number of bytes is enough. -/
def decodeFrom : (fuel index : Nat) → List Nat → Except Utf8Error (List Char)
  | _, _, [] => .ok []
  | 0, index, _ :: _ => .error (.incomplete index)
  | fuel + 1, index, first :: bytes =>
    match sequenceLength? first with
    | none => .error (.invalid index 1)
    | some length => do
      let (continuation, rest) ← continuationBytes index first (length - 1) 1 bytes
      let cs ← decodeFrom fuel (index + length) rest
      return Char.ofNat (codePoint first continuation) :: cs

/-- The text of a byte sequence, or the first place where it is not UTF-8. -/
def decodeUtf8 (bytes : List Nat) : Except Utf8Error String :=
  (decodeFrom bytes.length 0 bytes).map String.ofList

/-- The bytes of one character. -/
def encodeChar (c : Char) : List Nat :=
  let n := c.toNat
  if n < 0x80 then [n]
  else if n < 0x800 then [0xC0 + n / 0x40, 0x80 + n % 0x40]
  else if n < 0x10000 then [0xE0 + n / 0x1000, 0x80 + n / 0x40 % 0x40, 0x80 + n % 0x40]
  else [0xF0 + n / 0x40000, 0x80 + n / 0x1000 % 0x40, 0x80 + n / 0x40 % 0x40, 0x80 + n % 0x40]

/-- The bytes of a text. -/
def encodeUtf8 (s : String) : List Nat :=
  s.toList.flatMap encodeChar

end ForeignWrap.Text
