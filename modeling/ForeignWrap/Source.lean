import ForeignWrap.Config
import ForeignWrap.Text.Blank
import ForeignWrap.Text.Cut

/-!
# Sources

A source is a text of declarations. A directive stands on a line of its own that begins with the
marker of comments; the comment lines right above it, other directives among them, document its
method.

## Main definitions

* `ForeignWrap.Source`: a named text.
* `ForeignWrap.Request`: a directive line with what stands above it and where it is.
* `ForeignWrap.Source.requests`: the directive lines of a source, in order.
-/

namespace ForeignWrap

/-- A text of declarations, with the name that places in it are told by. -/
structure Source where
  name : String
  text : String
deriving DecidableEq, Repr

/-- A directive line. -/
structure Request where
  line : String
  /-- The comment lines that document the method. -/
  docs : List String
  /-- Where the line is. -/
  label : String
deriving DecidableEq, Repr

/-- What begins a comment line. -/
def commentMarker : String :=
  "//"

/-- Whether a line is a comment and nothing else. -/
def isComment (line : String) : Bool :=
  Text.beginsWith commentMarker line

/-- Whether a comment line holds a directive: the keyword is its first word. -/
def isDirective (line : String) : Bool :=
  isComment line && Text.firstField line == some directiveKeyword

/-- The lines that document a method, of those above its directive: an empty comment line just above
it only sets it apart. -/
def docLines (above : List String) : List String :=
  match above.getLast? with
  | some "//" | some "///" => above.dropLast
  | _ => above

namespace Source

/-- The place of a line, counted from one. -/
def label (source : String) (number : Nat) : String :=
  source ++ ":" ++ toString number

/-- The directive lines among the lines of a source, of which the first has the given number and the
comment lines `above` right above it. -/
def requestsFrom (source : String) (number : Nat) (above : List String) :
    List String → List Request
  | [] => []
  | line :: rest =>
    let others :=
      requestsFrom source (number + 1) (if isComment line then above ++ [line] else []) rest
    if isDirective line then ⟨line, docLines above, label source number⟩ :: others else others

/-- The directive lines of a source, in order. -/
def requests (source : Source) : List Request :=
  requestsFrom source.name 1 [] (Text.lines source.text)

end Source

end ForeignWrap
