import ForeignWrap.Text.Blank
import ForeignWrap.Text.Cut

/-!
# Documentation of methods

A method is documented by the comment lines above its directive and by the place of the directive.

## Main definitions

* `ForeignWrap.Doc.textOf`: what a comment line says.
* `ForeignWrap.Doc.ofLines`: the documentation of a method.
-/

namespace ForeignWrap

/-- A line of documentation. -/
inductive Doc where
  /-- A line whose text is escaped. -/
  | escaped (text : String)
  /-- A line whose text needs no escapes, and has none. -/
  | verbatim (text : String)
deriving DecidableEq, Repr

namespace Doc

/-- What a comment line says: all after its marker, without the white space at the end. -/
def textOf (line : String) : String :=
  let line := Text.trimEnd line
  (["///", "//!", "//"].findSome? (Text.dropStart? · line)).getD line

/-- The line that names the place of a directive. -/
def provenance (label : String) : String :=
  " Generated from " ++ label ++ "."

/-- The documentation of a method: comment lines, and the place that it comes from after an empty
line. -/
def ofLines (lines : List String) (label : Option String) : List Doc :=
  let docs := lines.map (.escaped <| textOf ·)
  match label with
  | none => docs
  | some label =>
    docs ++ (if docs.isEmpty then [] else [.escaped ""]) ++ [.escaped (provenance label)]

end Doc

end ForeignWrap
