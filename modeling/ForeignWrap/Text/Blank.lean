/-!
# White space, lines and fields

White space is the Unicode property White_Space. Lines end at a line feed, and a carriage return
just before that line feed belongs to the line end too.

## Main definitions

* `ForeignWrap.Text.isBlank`: the Unicode property White_Space.
* `ForeignWrap.Text.trimStart`, `ForeignWrap.Text.trimEnd`: a text without the white space at one
  end.
* `ForeignWrap.Text.lines`: the lines of a text.
* `ForeignWrap.Text.firstField`: the first run of characters that are not white space.
-/

namespace ForeignWrap.Text

/-- The characters of the Unicode property White_Space. -/
def isBlank (c : Char) : Bool :=
  let n := c.toNat
  (9 ≤ n && n ≤ 13) || n == 0x20 || n == 0x85 || n == 0xA0 || n == 0x1680 ||
    (0x2000 ≤ n && n ≤ 0x200A) || n == 0x2028 || n == 0x2029 || n == 0x202F || n == 0x205F ||
    n == 0x3000

/-- The characters without the white space before them. -/
def dropBlanks (cs : List Char) : List Char :=
  cs.dropWhile isBlank

/-- The characters without the white space after them. -/
def dropBlanksEnd (cs : List Char) : List Char :=
  (cs.reverse.dropWhile isBlank).reverse

/-- A text without the white space at its start. -/
def trimStart (s : String) : String :=
  String.ofList (dropBlanks s.toList)

/-- A text without the white space at its end. -/
def trimEnd (s : String) : String :=
  String.ofList (dropBlanksEnd s.toList)

/-! ## Lines and fields -/

/-- A line without the carriage return that belongs to its line end. -/
def dropReturn (line : List Char) : List Char :=
  if line.getLast? = some '\r' then line.dropLast else line

/-- The lines of the characters `cs`. The last line need not be ended; where it is not, a carriage
return at its end is its own. -/
def charLines (cs : List Char) : List (List Char) :=
  match cs with
  | [] => []
  | c :: rest =>
    let line := (c :: rest).takeWhile (· != '\n')
    match _h : (c :: rest).dropWhile (· != '\n') with
    | [] => [line]
    | _ :: after => dropReturn line :: charLines after
termination_by cs.length
decreasing_by
  have h := (List.dropWhile_sublist (l := c :: rest) (· != '\n')).length_le
  rw [_h] at h
  simp only [List.length_cons] at h ⊢
  omega

/-- The lines of a text. -/
def lines (s : String) : List String :=
  (charLines s.toList).map String.ofList

/-- The first run of characters that are not white space, if there is one. -/
def firstField (s : String) : Option String :=
  match (dropBlanks s.toList).takeWhile (!isBlank ·) with
  | [] => none
  | field => some (String.ofList field)

end ForeignWrap.Text
