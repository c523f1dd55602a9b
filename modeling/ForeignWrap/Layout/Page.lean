import ForeignWrap.Layout.Draft

/-!
# Pages

A page is a draft whose lines have been ended. A box that fits into the rest of its line stays on
it; in one that does not, a block ends the line at each of its gaps, and a flow at those where the
part up to the next gap does not fit.

## Main definitions

* `ForeignWrap.Layout.measure`: the marks of a draft with the widths that decide about them.
* `ForeignWrap.Layout.Page.add`: writes one mark onto a page.
* `ForeignWrap.Layout.write`: the text of a draft.
-/

namespace ForeignWrap.Layout

/-- The width of a line. -/
def lineWidth : Int :=
  89

/-- The room that a line has at least, however far in it begins. -/
def leastRoom : Int :=
  60

/-! ## Measuring -/

/-- The marks of a draft, given with the last one first, and the width that decides about each: of a
gap, up to the next gap of its box or one around it; of a box, up to the next gap after it. The
widths are differences of `left`, the width from a mark to the end of the draft; `next` is the width
from the next gap on, and `around` holds that of the boxes that are open, the innermost first. -/
def measureFrom (left next : Nat) (around : List Nat) (measured : List (Mark × Nat)) :
    List Mark → List (Mark × Nat)
  | [] => measured
  | .text s :: before =>
    measureFrom (left + width s) next around ((.text s, width s) :: measured) before
  | .wide :: before =>
    measureFrom (left + farTooWide) next around ((.wide, farTooWide) :: measured) before
  | .gap g :: before =>
    let left := left + g.blanks
    measureFrom left left around ((.gap g, left - next) :: measured) before
  | .limit :: before => measureFrom left left around measured before
  | .closeBox :: before =>
    measureFrom left next (next :: around) ((.closeBox, 0) :: measured) before
  | .openBox kind indent :: before =>
    match around with
    | [] => measureFrom left next [] ((.openBox kind indent, left - next) :: measured) before
    | outer :: around =>
      measureFrom left outer around ((.openBox kind indent, left - outer) :: measured) before

/-- The marks of a draft, given with the last one first, with the widths that decide about them. -/
def measure (marks : List Mark) : List (Mark × Nat) :=
  measureFrom 0 0 [] [] marks

/-! ## Ending lines -/

/-- A box that is open on a page. -/
inductive OpenBox where
  /-- It fits into its line. -/
  | fits (kind : BoxKind)
  /-- It does not; lines around it begin at `outer`. -/
  | broken (kind : BoxKind) (outer : Int)

/-- What has been written, the last piece first, and where the next piece goes. -/
structure Page where
  written : List String := []
  /-- The room that is left in the line. -/
  room : Int := lineWidth
  /-- Where the next line begins. -/
  indent : Int := 0
  /-- Spaces that come before the next text, if it is on this line. -/
  blanks : Nat := 0
  boxes : List OpenBox := []

namespace Page

/-- Writes a text, after the spaces that wait for it. -/
def addText (page : Page) (s : String) : Page :=
  { page with
    written := s :: String.ofList (List.replicate page.blanks ' ') :: page.written
    room := page.room - width s
    blanks := 0 }

/-- Whether the line goes on at a gap. -/
def goesOn (page : Page) (g : Gap) (size : Nat) : Bool :=
  g.firm ||
    match page.boxes with
    | .fits _ :: _ => true
    | .broken .block _ :: _ => false
    | .broken .flow _ :: _ | [] => size ≤ page.room

/-- Writes a gap on the line, or ends the line there. -/
def addGap (page : Page) (g : Gap) (size : Nat) : Page :=
  if page.goesOn g size then
    let page := { page with blanks := page.blanks + g.blanks, room := page.room - g.blanks }
    if g.flat = "" then page else page.addText g.flat
  else
    let page := if g.lineEnd = "" then page else page.addText g.lineEnd
    let indent := page.indent + g.indent
    let page :=
      { page with
        written := "\n" :: page.written
        blanks := indent.toNat
        room := max (lineWidth - indent) leastRoom }
    if g.lineStart = "" then page else page.addText g.lineStart

/-- Opens a box, which is broken if it does not fit into the line. -/
def openBox (page : Page) (kind : BoxKind) (indent : Int) (size : Nat) : Page :=
  if page.room < size then
    { page with
      boxes := .broken kind page.indent :: page.boxes
      indent := page.indent + indent }
  else { page with boxes := .fits kind :: page.boxes }

/-- Closes the innermost box. -/
def closeBox (page : Page) : Page :=
  match page.boxes with
  | .broken _ outer :: boxes => { page with boxes, indent := outer }
  | _ :: boxes => { page with boxes }
  | [] => page

/-- Writes one mark. -/
def add (page : Page) : Mark × Nat → Page
  | (.text s, _) => page.addText s
  | (.gap g, size) => page.addGap g size
  | (.openBox kind indent, size) => page.openBox kind indent size
  | (.closeBox, _) => page.closeBox
  | (.limit, _) => page
  | (.wide, _) => page

/-- The text of a page. -/
def text (page : Page) : String :=
  String.join page.written.reverse

end Page

/-- The text of a draft, if it can be written. -/
def write (draft : Draft) : Except Unwritable String := do
  let (_, marks) ← draft.run []
  return ((measure marks).foldl Page.add {}).text

end ForeignWrap.Layout
