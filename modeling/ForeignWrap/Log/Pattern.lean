import ForeignWrap.Code.Literal
import ForeignWrap.Text.Alphanumeric

/-!
# Values of fields

A rule of a filter can ask for the value of a field: a truth value, a number or a pattern, which is
a regular expression. Values belong to spans and no event is in one, so a value is never compared:
all that shows is whether a text is a value.

## Main definitions

* `ForeignWrap.Log.isPattern`: whether a text is a regular expression.
* `ForeignWrap.Log.isValue`: whether a text is a value.
-/

namespace ForeignWrap.Log

/-! ## Escapes -/

/-- What an escape in a pattern stands for. -/
inductive Escape where
  /-- A character. -/
  | char (c : Char)
  /-- Any character of a set. -/
  | set
  /-- A place between characters. -/
  | place

/-- The character whose code point the next `count` hexadecimal digits are, and what follows. -/
def hexEscape? (count : Nat) (cs : List Char) : Option (Escape × List Char) := do
  let digits ← (cs.take count).mapM Code.hexValue?
  let value := digits.foldl (· * 16 + ·) 0
  if digits.length = count && Code.isScalar value then
    return (.char (Char.ofNat value), cs.drop count)
  else none

/-- The control characters that letters behind a backslash stand for. -/
def controls : List (Char × Char) :=
  [('a', '\x07'), ('t', '\t'), ('n', '\n'), ('v', '\x0b'), ('f', '\x0c'), ('r', '\r')]

/-- What an escape stands for and what follows it, from behind its backslash. -/
def escape? : List Char → Option (Escape × List Char)
  | [] => none
  | 'x' :: rest => hexEscape? 2 rest
  | 'u' :: rest => hexEscape? 4 rest
  | 'U' :: rest => hexEscape? 8 rest
  | 'p' :: _ :: rest | 'P' :: _ :: rest => some (.set, rest)
  | c :: rest =>
    match controls.lookup c with
    | some control => some (.char control, rest)
    | none =>
      if c ∈ ['d', 'D', 's', 'S', 'w', 'W'] then some (.set, rest)
      else if c ∈ ['A', 'z', 'b', 'B', '<', '>'] then some (.place, rest)
      else if c.toNat < 0x80 && !c.isAlphanum then some (.char c, rest)
      else none

/-! ## Classes -/

/-- One of the characters of a class, if it is a single one, and what follows it. -/
def classItem? : List Char → Option (Option Char × List Char)
  | [] => none
  | '\\' :: rest =>
    match escape? rest with
    | some (.char c, rest) => some (some c, rest)
    | some (.set, rest) => some (none, rest)
    | _ => none
  | c :: rest => some (some c, rest)

/-- What follows the beginning of a class: a circumflex negates it, and hyphens or one closing
bracket stand for themselves there. -/
def afterClassStart (cs : List Char) : List Char :=
  let cs := if cs.head? = some '^' then cs.drop 1 else cs
  if cs.head? = some ']' then cs.drop 1 else cs.dropWhile (· = '-')

/-- What follows a class, `depth` others around it being open. Each step takes at least one
character, so `fuel` above their number is enough. -/
def afterClass? : (fuel depth : Nat) → List Char → Option (List Char)
  | 0, _, _ => none
  | fuel + 1, depth, cs =>
    match cs with
    | ']' :: rest =>
      match depth with
      | 0 => some rest
      | depth + 1 => afterClass? fuel depth rest
    | '[' :: rest => afterClass? fuel (depth + 1) (afterClassStart rest)
    | '&' :: '&' :: rest | '-' :: '-' :: rest | '~' :: '~' :: rest => afterClass? fuel depth rest
    | cs => do
      let (first, rest) ← classItem? cs
      match rest with
      | '-' :: next =>
        if next.head? = some ']' || next.head? = some '-' then afterClass? fuel depth rest
        else
          match first, ← classItem? next with
          | some first, (some last, rest) =>
            if first ≤ last then afterClass? fuel depth rest else none
          | _, _ => none
      | rest => afterClass? fuel depth rest

/-! ## Groups -/

/-- Whether these are flags: each at most once, and some of them after a hyphen. -/
def areFlags (flags : List Char) : Bool :=
  decide flags.Nodup && flags.all (· ∈ ['i', 'm', 's', 'U', 'u', 'R', 'x', '-']) &&
    flags.getLast? ≠ some '-'

/-- What follows the name of a group and its bracket. -/
def afterGroupName? : List Char → Option (List Char)
  | [] => none
  | c :: rest =>
    let isInner (c : Char) : Bool := c ∈ ['_', '.', '[', ']'] || Text.isAlphanumeric c
    match rest.dropWhile isInner with
    | '>' :: rest => if Text.isIdentStart c then some rest else none
    | _ => none

/-- Whether a group is open after a question mark behind its parenthesis, and what follows. A group
has a name or flags there; flags may also stand for themselves. -/
def afterGroupMark? : List Char → Option (Bool × List Char)
  | 'P' :: '<' :: rest | '<' :: rest => (afterGroupName? rest).map (true, ·)
  | cs =>
    let flags := cs.takeWhile fun c => c ≠ ':' && c ≠ ')'
    match cs.drop flags.length with
    | ':' :: rest => if areFlags flags then some (true, rest) else none
    | ')' :: rest => if flags ≠ [] && areFlags flags then some (false, rest) else none
    | _ => none

/-! ## Patterns -/

/-- Whether the rest of a regular expression can stand after what is read of it: `depth` groups are
open, and a repetition may come next if there is something to repeat. A count between braces never
ends, since a closing brace ends the field. Each step takes at least one character. -/
def isPatternFrom : (fuel depth : Nat) → (repeatable : Bool) → List Char → Bool
  | 0, _, _, _ => false
  | fuel + 1, depth, repeatable, cs =>
    match cs with
    | [] => depth = 0
    | '(' :: '?' :: rest =>
      match afterGroupMark? rest with
      | some (true, rest) => isPatternFrom fuel (depth + 1) false rest
      | some (false, rest) => isPatternFrom fuel depth false rest
      | none => false
    | '(' :: rest => isPatternFrom fuel (depth + 1) false rest
    | ')' :: rest => depth ≠ 0 && isPatternFrom fuel (depth - 1) true rest
    | '|' :: rest => isPatternFrom fuel depth false rest
    | '*' :: rest | '+' :: rest | '?' :: rest =>
      let rest := if rest.head? = some '?' then rest.drop 1 else rest
      repeatable && isPatternFrom fuel depth true rest
    | '\x7b' :: _ => false
    | '[' :: rest =>
      match afterClass? (rest.length + 1) 0 (afterClassStart rest) with
      | some rest => isPatternFrom fuel depth true rest
      | none => false
    | '\\' :: rest =>
      match escape? rest with
      | some (_, rest) => isPatternFrom fuel depth true rest
      | none => false
    | _ :: rest => isPatternFrom fuel depth true rest

/-- Whether a text is a regular expression. -/
def isPattern (cs : List Char) : Bool :=
  isPatternFrom (cs.length + 1) 0 false cs

/-! ## Values -/

/-- Whether a text is a decimal number: digits with a point before, among or after them, and perhaps
an exponent. -/
def isDecimal (cs : List Char) : Bool :=
  let rest := cs.dropWhile Char.isDigit
  let fraction := if rest.head? = some '.' then (rest.drop 1).takeWhile Char.isDigit else []
  let rest := if rest.head? = some '.' then (rest.drop 1).dropWhile Char.isDigit else rest
  let exponent :=
    match rest.drop 1 with
    | '+' :: digits | '-' :: digits => digits
    | digits => digits
  (cs.head?.any Char.isDigit || fraction ≠ []) &&
    (rest = [] ||
      ((rest.head? = some 'e' || rest.head? = some 'E') && exponent ≠ [] &&
        exponent.all Char.isDigit))

/-- Whether a text is the value of a field. Truth values and numbers are patterns, but for numbers
after a plus sign. -/
def isValue (value : String) : Bool :=
  match value.toList with
  | '+' :: digits =>
    isDecimal digits ||
      String.ofList (digits.map Char.toLower) ∈ ["inf", "infinity", "nan"]
  | cs => isPattern cs

end ForeignWrap.Log
