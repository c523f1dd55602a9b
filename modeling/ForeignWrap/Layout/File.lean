import ForeignWrap.Layout.Item
import ForeignWrap.Layout.Page

/-!
# Layout of files

The writers of the classes of syntax call each other. They are tied together to a depth, which is
taken from the file: no part of a file is nested deeper than twice the number of its tokens.

## Main definitions

* `ForeignWrap.Layout.Scribe.atDepth`: all writers, to a depth.
* `ForeignWrap.Layout.fileText`: the text of a file.
-/

namespace ForeignWrap.Layout

/-- The writers that write one level with their own rules and all inside with `s`. -/
def Scribe.around (s : Scribe) : Scribe where
  type := s.writeType
  bound := s.writeBound
  args := s.writeArgs
  pat := s.writePat
  expr := s.writeExpr
  link := s.writeLink
  stmt := s.writeStmt
  item := s.writeItem

/-- The writers of syntax that is at most `depth` levels deep. -/
def Scribe.atDepth : (depth : Nat) → Scribe
  | 0 => .exhausted
  | depth + 1 => (atDepth depth).around

/-- The draft of a file. -/
def fileDraft (file : Syntax.File) : Draft :=
  let s := Scribe.atDepth (2 * file.size + 2)
  block 0 do
    s.innerAttributes file.attrs
    all file.items (s.item .file)

/-- The text of a file, unless it has code without a tree where something is written. -/
def fileText (file : Syntax.File) : Except Unwritable String :=
  write (fileDraft file)

end ForeignWrap.Layout
