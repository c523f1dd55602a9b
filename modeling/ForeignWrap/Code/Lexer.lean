import ForeignWrap.Code.Literal
import ForeignWrap.Code.Token
import ForeignWrap.Text.Blank
import ForeignWrap.Text.Cut
import ForeignWrap.Text.Quoted

/-!
# Reading code

A text is code if its brackets match and everything else is spacing, a comment or a token. Comments
vanish, except those that document something: they stand for an attribute that holds their text.

## Main definitions

* `ForeignWrap.Code.skipSpace`: the text after spacing and comments.
* `ForeignWrap.Code.docComment?`: a documenting comment as an attribute.
* `ForeignWrap.Code.leaf?`: the literal, sign or word that a text begins with.
* `ForeignWrap.Code.lex`: the tokens of a text.
-/

namespace ForeignWrap.Code

open Text

/-! ## Spacing and comments -/

/-- Spacing between tokens: white space and the two direction marks. -/
def isSpacing (c : Char) : Bool :=
  isBlank c || c.toNat == 0x200E || c.toNat == 0x200F

/-- The comment text up to the end of the line, and what follows it. A carriage return before the
line feed is not part of the comment. -/
def restOfLine : List Char → List Char × List Char
  | [] => ([], [])
  | '\n' :: rest => ([], '\n' :: rest)
  | '\r' :: '\n' :: rest => ([], '\n' :: rest)
  | c :: rest => let (line, after) := restOfLine rest; (c :: line, after)

/-- What follows a block comment, `depth` of whose openings are still open. -/
def afterBlock? (depth : Nat) : List Char → Option (List Char)
  | '/' :: '*' :: rest => afterBlock? (depth + 1) rest
  | '*' :: '/' :: rest => if depth ≤ 1 then some rest else afterBlock? (depth - 1) rest
  | _ :: rest => afterBlock? depth rest
  | [] => none

/-- What follows a comment that documents nothing. Three slashes or two stars document, and so does
an exclamation mark; four slashes, three stars and an empty block do not. -/
def afterComment? : List Char → Option (List Char)
  | '/' :: '/' :: '/' :: '/' :: rest => some (restOfLine rest).2
  | '/' :: '/' :: '/' :: _ => none
  | '/' :: '/' :: '!' :: _ => none
  | '/' :: '/' :: rest => some (restOfLine rest).2
  | '/' :: '*' :: '*' :: '/' :: rest => some rest
  | '/' :: '*' :: '*' :: '*' :: rest => afterBlock? 1 ('*' :: '*' :: rest)
  | '/' :: '*' :: '*' :: _ => none
  | '/' :: '*' :: '!' :: _ => none
  | '/' :: '*' :: rest => afterBlock? 1 rest
  | _ => none

/-- The text after spacing and comments. Each step takes at least one character, so `fuel` at their
number is enough. -/
def skipSpace : (fuel : Nat) → List Char → List Char
  | 0, cs => cs
  | _ + 1, [] => []
  | fuel + 1, c :: rest =>
    if isSpacing c then skipSpace fuel rest
    else
      match afterComment? (c :: rest) with
      | some after => skipSpace fuel after
      | none => c :: rest

/-- Whether every carriage return has its line feed. -/
def returnsPaired : List Char → Bool
  | [] => true
  | '\r' :: '\n' :: rest => returnsPaired rest
  | '\r' :: _ => false
  | _ :: rest => returnsPaired rest

/-- The text of a documenting comment, whether it documents what encloses it, and what follows. -/
def docContent? : List Char → Option (List Char × Bool × List Char)
  | '/' :: '/' :: '!' :: rest => let (line, after) := restOfLine rest; some (line, true, after)
  | '/' :: '*' :: '!' :: rest => block rest true
  | '/' :: '/' :: '/' :: rest =>
    if rest.head? = some '/' then none
    else let (line, after) := restOfLine rest; some (line, false, after)
  | '/' :: '*' :: '*' :: rest => if rest.head? = some '*' then none else block rest false
  | _ => none
where
  /-- The text of a block that has been opened, without its end. -/
  block (rest : List Char) (inner : Bool) : Option (List Char × Bool × List Char) := do
    let after ← afterBlock? 1 rest
    return (rest.take (rest.length - after.length - 2), inner, after)

/-- The attribute that gives documentation: `# [doc = "…"]`, with an exclamation mark if it is for
what encloses it. -/
def docAttribute (inner : Bool) (content : String) : List Token :=
  op "#" ++ (if inner then op "!" else []) ++
    brackets (word "doc" ++ op "=" ++ [.literal (stringLiteral content)])

/-- A documenting comment as the attribute that it stands for, and what follows it. -/
def docComment? (cs : List Char) : Option (List Token × List Char) := do
  let (content, inner, after) ← docContent? cs
  if returnsPaired content then some (docAttribute inner (String.ofList content), after) else none

/-! ## Leaves -/

/-- The characters that are signs. -/
def isSignChar (c : Char) : Bool :=
  c ∈ "~!@#$%^&*-=+|;:,<.>/?'".toList

/-- Whether a sign begins here: a slash that opens a comment is none. -/
def atSign : List Char → Bool
  | '/' :: '/' :: _ => false
  | '/' :: '*' :: _ => false
  | c :: _ => isSignChar c
  | [] => false

/-- The words that have no raw form. -/
def unrawWords : List String :=
  ["_", "super", "self", "Self", "crate"]

/-- The characters of `cs` before `rest`, which ends it. -/
def taken (cs rest : List Char) : String :=
  String.ofList (cs.take (cs.length - rest.length))

/-- What follows a word, which may be raw. -/
def afterName? : List Char → Option (List Char)
  | 'r' :: '#' :: rest => do
    let after ← afterWord? rest
    if taken rest after ∈ unrawWords then none else some after
  | cs => afterWord? cs

/-- Beginnings of literals: a word may not begin like one, though the literal itself is none. -/
def literalPrefixes : List String :=
  ["r\"", "r#\"", "r##", "b\"", "b'", "br\"", "br#", "c\"", "cr\"", "cr#"]

/-- The sign at the start of `cs`. An apostrophe is one only before the name of a lifetime, which
neither an apostrophe nor, if it is not raw, a hash may follow. -/
def sign? : List Char → Option (Token × List Char)
  | [] => none
  | c :: rest =>
    if !atSign (c :: rest) then none
    else if c = '\'' then
      match afterName? rest with
      | none => none
      | some after =>
        let raw := (afterPrefix? ['r', '#'] rest).isSome
        if after.head? = some '\'' || (after.head? = some '#' && !raw) then none
        else some (.sign '\'' true, rest)
    else some (.sign c (atSign rest), rest)

/-- The word at the start of `cs`. -/
def word? (cs : List Char) : Option (Token × List Char) :=
  if literalPrefixes.any fun start => (afterPrefix? start.toList cs).isSome then none
  else do
    let after ← afterName? cs
    return (.word (taken cs after), after)

/-- The placeholder of code that could not be read, which passes for a literal. -/
def errorMark : List Char :=
  "(/*ERROR*/)".toList

/-- The literal, sign or word at the start of `cs`, and what follows it. -/
def leaf? (cs : List Char) : Option (Token × List Char) :=
  match afterLiteral? cs with
  | some after => some (.literal (taken cs after), after)
  | none =>
    sign? cs <|> word? cs <|>
      (afterPrefix? errorMark cs).map fun after => (.literal (String.ofList errorMark), after)

/-! ## Groups -/

/-- The bracket that a character opens. -/
def opens? (cs : List Char) : Option Delimiter :=
  match cs with
  | '(' :: _ => if (afterPrefix? errorMark cs).isSome then none else some .parenthesis
  | '[' :: _ => some .bracket
  | '\x7b' :: _ => some .brace
  | _ => none

/-- The bracket that a character closes. -/
def closes? : Char → Option Delimiter
  | ')' => some .parenthesis
  | ']' => some .bracket
  | '\x7d' => some .brace
  | _ => none

/-- The tokens of `cs` up to the end, or up to the bracket that closes the group `inside`, and what
follows it. Each step takes at least one character, so more `fuel` than their number is enough. -/
def tokens? : (fuel : Nat) → (inside : Option Delimiter) → List Char →
    Option (List Token × List Char)
  | 0, _, _ => none
  | fuel + 1, inside, cs =>
    let cs := skipSpace cs.length cs
    match docComment? cs with
    | some (doc, rest) => do
      let (more, after) ← tokens? fuel inside rest
      return (doc ++ more, after)
    | none =>
      match cs with
      | [] => if inside.isNone then some ([], []) else none
      | c :: rest =>
        match opens? (c :: rest) with
        | some delimiter => do
          let (content, rest) ← tokens? fuel (some delimiter) rest
          let (more, after) ← tokens? fuel inside rest
          return (.group delimiter content :: more, after)
        | none =>
          match closes? c with
          | some delimiter => if inside = some delimiter then some ([], rest) else none
          | none => do
            let (token, rest) ← leaf? (c :: rest)
            let (more, after) ← tokens? fuel inside rest
            return (token :: more, after)

/-- The characters after a byte order mark, which may stand at the very start. -/
def dropOrderMark : List Char → List Char
  | c :: rest => if c.toNat = 0xFEFF then rest else c :: rest
  | [] => []

/-- The tokens of a text, unless it is no code. -/
def lex (s : String) : Option (List Token) :=
  let cs := dropOrderMark s.toList
  (tokens? (cs.length + 1) none cs).map Prod.fst

end ForeignWrap.Code
