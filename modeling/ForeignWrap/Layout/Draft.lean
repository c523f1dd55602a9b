import ForeignWrap.Code.Token

/-!
# Drafts of a page

A draft is code with all the places where a line may end. Boxes say which of these places go
together: a block ends a line at all its gaps or at none of them, a flow only where the next part
does not fit. A writer adds marks to the end of a draft, unless it is given what no draft can hold.

## Main definitions

* `ForeignWrap.Layout.Mark`: a piece of text, a gap, or the edge of a box.
* `ForeignWrap.Layout.Unwritable`: what no draft can hold.
* `ForeignWrap.Layout.Draft`: a writer of marks.
* `ForeignWrap.Layout.flow`, `ForeignWrap.Layout.block`: boxes.
-/

namespace ForeignWrap.Layout

/-! ## Marks -/

/-- A place where a line may end. -/
structure Gap where
  /-- The spaces that stand here if the line goes on. -/
  blanks : Nat := 0
  /-- How much further in than its box the next line begins. -/
  indent : Int := 0
  /-- What the line ends with. -/
  lineEnd : String := ""
  /-- What the next line begins with. -/
  lineStart : String := ""
  /-- What stands here if the line goes on. -/
  flat : String := ""
  /-- Whether the gap is taken back where its box ends right after it. -/
  optional : Bool := false
  /-- Whether the line goes on in any case. -/
  firm : Bool := false

/-- How the gaps of a box go together. -/
inductive BoxKind where
  /-- Each gap ends a line only if the part after it does not fit. -/
  | flow
  /-- All gaps end a line, or none does. -/
  | block
deriving DecidableEq

/-- A piece of a draft. -/
inductive Mark where
  | text (text : String)
  | gap (gap : Gap)
  | openBox (kind : BoxKind) (indent : Int)
  | closeBox
  /-- Where a gap was taken back. Parts before it are measured only up to here. -/
  | limit
  /-- What fits in no line, and is written as nothing. -/
  | wide

/-- More than any line holds. -/
def farTooWide : Nat :=
  0xffff

/-- How far one box is indented inside another. -/
def indentStep : Int :=
  4

/-- The width of a text, in bytes. -/
def width (text : String) : Nat :=
  text.utf8ByteSize

/-! ## Writers -/

/-- What no draft can hold. -/
inductive Unwritable where
  /-- Code that has no tree, which shows neither its parts nor where its lines may end. -/
  | raw (what code : String)
  /-- Rules of a macro that are not like rules. -/
  | macroRules
deriving DecidableEq, Repr

/-- The wording of a failure to write. -/
def Unwritable.message : Unwritable → String
  | .raw what code => "not implemented: " ++ what ++ "::Verbatim `" ++ code ++ "`"
  | .macroRules => "not implemented: bad macro_rules syntax"

/-- A writer with a result, which may fail. The last mark of the draft comes first. -/
abbrev DraftM := StateT (List Mark) (Except Unwritable)

/-- A writer of marks. -/
abbrev Draft := DraftM Unit

/-- Fails because code has no tree. -/
def noLayout (what : String) (tokens : List Code.Token) : Draft :=
  throw (.raw what (Code.text tokens))

/-- Writes a text that holds no gap. -/
def text (s : String) : Draft :=
  modify (.text s :: ·)

/-- Writes a gap. -/
def gap (g : Gap) : Draft :=
  modify (.gap g :: ·)

/-- A gap of no width. -/
def mayEnd : Draft :=
  gap {}

/-- A gap that is a space. -/
def space : Draft :=
  gap { blanks := 1 }

/-- The end of a line. -/
def newline : Draft :=
  gap { blanks := farTooWide }

/-- A space, unless its box ends right after it. -/
def spaceIfMore : Draft :=
  gap { blanks := 1, optional := true }

/-- The end of a line, unless its box ends right after it. -/
def newlineIfMore : Draft :=
  gap { blanks := farTooWide, optional := true }

/-- A gap where the line goes on. Parts before it are measured only up to here. -/
def goOn : Draft :=
  gap { firm := true }

/-- The comma after an element of a list and the gap after it. After the last one there is a comma
only if a line ends. -/
def comma (isLast : Bool) : Draft := do
  if isLast then gap { lineEnd := "," }
  else
    text ","
    space

/-- The same between braces, which have a space inside. -/
def commaBeforeBrace (isLast : Bool) : Draft := do
  if isLast then gap { blanks := 1, lineEnd := "," }
  else
    text ","
    space

/-- Whether the last text of a draft ends with a dot. -/
def endsWithDot : List Mark → Bool
  | [] => false
  | .text s :: _ => s.toList.getLast? = some '.'
  | _ :: before => endsWithDot before

/-- A gap before a dot. Where the line goes on, a dot that was just written stays apart from it. -/
def gapBeforeDot : Draft :=
  modify fun marks => .gap { flat := if endsWithDot marks then " " else "" } :: marks

/-- Moves the line after the gap just written. -/
def indentGap (indent : Int) : Draft :=
  modify fun
    | .gap g :: before => .gap { g with indent := g.indent + indent } :: before
    | marks => marks

/-- Lets the line after the gap just written begin one step less far in. -/
def outdent : Draft :=
  indentGap (-indentStep)

/-! ## Boxes -/

/-- Closes a box. A gap that is all it holds goes with the box, and an optional gap at its end is
taken back. -/
def closeMarks : List Mark → List Mark
  | .gap _ :: .openBox _ _ :: before => before
  | .gap g :: before => .closeBox :: (if g.optional then .limit else .gap g) :: before
  | marks => .closeBox :: marks

/-- A box around what `content` writes. -/
def box (kind : BoxKind) (indent : Int) (content : Draft) : Draft := do
  modify (.openBox kind indent :: ·)
  content
  modify closeMarks

/-- A box whose gaps end a line only where the next part does not fit. -/
def flow (indent : Int) (content : Draft) : Draft :=
  box .flow indent content

/-- A box whose gaps all end a line, or none. -/
def block (indent : Int) (content : Draft) : Draft :=
  box .block indent content

/-- The width of the marks since the box that is open, `depth` boxes inside having been closed. -/
def widthInBox : (depth : Nat) → List Mark → Nat
  | _, [] => 0
  | 0, .openBox _ _ :: _ => 0
  | depth + 1, .openBox _ _ :: before => widthInBox depth before
  | depth, .closeBox :: before => widthInBox (depth + 1) before
  | depth, .text s :: before => width s + widthInBox depth before
  | depth, .gap g :: before => g.blanks + widthInBox depth before
  | depth, .wide :: before => farTooWide + widthInBox depth before
  | depth, .limit :: before => widthInBox depth before

/-- A block that does not stay on one line if it is wider than `most`. -/
def narrowBlock (indent : Int) (most : Nat) (content : Draft) : Draft :=
  block indent do
    content
    modify fun marks => if most < widthInBox 0 marks then .wide :: marks else marks

/-! ## Lists -/

/-- Writes the elements of a list, of which the first is first in line if `isFirst`. -/
def eachFrom {α : Type} (write : (isFirst isLast : Bool) → α → Draft) (isFirst : Bool) :
    List α → Draft
  | [] => pure ()
  | [a] => write isFirst true a
  | a :: b :: rest => do
    write isFirst false a
    eachFrom write false (b :: rest)

/-- Writes the elements of a list, each told whether it is the first and whether it is the last. -/
def each {α : Type} (elements : List α) (write : (isFirst isLast : Bool) → α → Draft) : Draft :=
  eachFrom write true elements

/-- Writes the elements of a list one after another. -/
def all {α : Type} (elements : List α) (write : α → Draft) : Draft :=
  each elements fun _ _ a => write a

/-- Writes the elements of a list in a block, with commas and with gaps at both ends. -/
def commaBlock {α : Type} (indent : Int) (elements : List α) (write : α → Draft) : Draft :=
  block indent do
    mayEnd
    each elements fun _ isLast a => do
      write a
      comma isLast
    outdent

/-- Writes the elements of a list with a text between neighbours. -/
def sepText {α : Type} (separator : String) (elements : List α) (write : α → Draft) : Draft :=
  each elements fun isFirst _ a => do
    if !isFirst then text separator
    write a

end ForeignWrap.Layout
