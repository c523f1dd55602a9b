import ForeignWrap.Proofs.Text.Cut
import ForeignWrap.Source
import Mathlib.Data.List.Forall2
import Mathlib.Data.List.TakeWhile

/-!
# Where directives stand and what is above them

The scan of a source carries the comment lines right above the line that comes next. Said without
the scan, there is one request for each line that holds a directive, in the order of the lines, and
it has the longest run of comment lines that ends right above that line.

## Main definitions

* `ForeignWrap.HoldsDirective`: a line with a directive.
* `ForeignWrap.EndsWithComments`: the longest run of comment lines at the end of some lines.
* `ForeignWrap.Trimmed`: such a run without an empty line at its end.
* `ForeignWrap.Source.RequestAt`: the request for a line of a source.
* `ForeignWrap.Source.requestAt_requests`: what the scan finds.
-/

namespace ForeignWrap

/-! ## Lines that hold directives -/

/-- A line that holds a directive: the keyword begins it, with nothing or white space after it. -/
def HoldsDirective (line : String) : Prop :=
  ∃ rest, line = directiveKeyword ++ rest ∧
    ∀ c, rest.toList.head? = some c → Text.isBlank c = true

theorem firstField_eq_some_iff {line field : String} (hfield : field ≠ "") :
    Text.firstField line = some field ↔
      (Text.dropBlanks line.toList).takeWhile (!Text.isBlank ·) = field.toList := by
  unfold Text.firstField
  split
  case h_1 hnil =>
    have hne : field.toList ≠ [] := by simpa using hfield
    simp [hnil, hne.symm]
  case h_2 => rw [Option.some_inj, Text.ofList_eq_iff]

theorem takeWhile_keyword (rest : List Char) :
    (directiveKeyword.toList ++ rest).takeWhile (!Text.isBlank ·) =
      directiveKeyword.toList ++ rest.takeWhile (!Text.isBlank ·) :=
  List.takeWhile_append_of_pos (List.all_eq_true.1 (by decide))

/-- A comment line has no white space at its start, so its first word is what it begins with. -/
theorem isDirective_iff {line : String} : isDirective line = true ↔ HoldsDirective line := by
  have hkeyword : directiveKeyword ≠ "" := by decide
  simp only [isDirective, isComment, Bool.and_eq_true, beq_iff_eq, Text.beginsWith_iff,
    firstField_eq_some_iff hkeyword]
  constructor
  · rintro ⟨⟨rest, rfl⟩, hfield⟩
    have hstart : Text.dropBlanks (commentMarker ++ rest).toList =
        (commentMarker ++ rest).toList := by
      rw [String.toList_append]
      rfl
    rw [hstart] at hfield
    generalize commentMarker ++ rest = line at hfield
    refine ⟨String.ofList (line.toList.dropWhile (!Text.isBlank ·)), ?_, ?_⟩
    · rw [← String.toList_inj, String.toList_append, String.toList_ofList, ← hfield,
        List.takeWhile_append_dropWhile]
    · intro c hc
      have hhead := List.head?_dropWhile_not (!Text.isBlank ·) line.toList
      rw [String.toList_ofList] at hc
      rw [hc] at hhead
      simpa using hhead
  · rintro ⟨rest, rfl, hblank⟩
    refine ⟨⟨"wrap:expr" ++ rest, ?_⟩, ?_⟩
    · rw [← String.append_assoc]
      rfl
    · have hstart : Text.dropBlanks (directiveKeyword ++ rest).toList =
          directiveKeyword.toList ++ rest.toList := by
        rw [String.toList_append]
        rfl
      have hend : rest.toList.takeWhile (!Text.isBlank ·) = [] := by
        cases hrest : rest.toList with
        | nil => rfl
        | cons c cs => simp [hblank c (by rw [hrest]; rfl)]
      rw [hstart, takeWhile_keyword, hend, List.append_nil]

instance (line : String) : Decidable (HoldsDirective line) :=
  decidable_of_iff _ isDirective_iff

/-! ## Comment lines above a line -/

/-- `block` is the longest run of comment lines at the end of `before`. -/
inductive EndsWithComments : (before block : List String) → Prop where
  | run {front block : List String} :
      (∀ line ∈ block, isComment line = true) →
      (∀ line, front.getLast? = some line → isComment line = false) →
      EndsWithComments (front ++ block) block

namespace EndsWithComments

variable {before block : List String} {line : String}

theorem nil : EndsWithComments [] [] :=
  @run [] [] (by simp) (by simp)

/-- A comment line lengthens the run. -/
theorem concat_comment (h : EndsWithComments before block) (hline : isComment line = true) :
    EndsWithComments (before ++ [line]) (block ++ [line]) := by
  obtain ⟨hblock, hfront⟩ := h
  rw [List.append_assoc]
  refine run ?_ hfront
  intro l hl
  obtain hl | rfl := by simpa using hl
  · exact hblock l hl
  · exact hline

/-- Any other line ends it. -/
theorem concat_other (hline : isComment line = false) : EndsWithComments (before ++ [line]) [] := by
  have hfront : ∀ l, (before ++ [line]).getLast? = some l → isComment l = false := by
    intro l hl
    obtain rfl : line = l := by simpa using hl
    exact hline
  have h := @run (before ++ [line]) [] (by simp) hfront
  rwa [List.append_nil] at h

end EndsWithComments

/-- `docs` are the comment lines of `block`, without the last one if it is empty. -/
inductive Trimmed : (block docs : List String) → Prop where
  | blank {docs : List String} {last : String} :
      last = "//" ∨ last = "///" → Trimmed (docs ++ [last]) docs
  | whole {block : List String} :
      (∀ last, block.getLast? = some last → last ≠ "//" ∧ last ≠ "///") → Trimmed block block

theorem trimmed_docLines (block : List String) : Trimmed block (docLines block) := by
  unfold docLines
  split
  case h_1 hlast | h_2 hlast =>
    obtain ⟨docs, rfl⟩ := List.getLast?_eq_some_iff.1 hlast
    rw [List.dropLast_concat]
    exact .blank (by simp)
  case h_3 hline hdoc =>
    refine .whole fun last hlast => ⟨?_, ?_⟩
    · rintro rfl
      exact hline hlast
    · rintro rfl
      exact hdoc hlast

/-! ## The scan -/

namespace Source

/-- Where directives stand among some lines, counted from zero. -/
def directiveIndices (lines : List String) : List Nat :=
  (List.range lines.length).filter fun index => lines[index]?.any (decide <| HoldsDirective ·)

/-- The request for the line at `index` among the lines of the source `name`, of which `before` are
the lines above it. -/
inductive RequestAt (name : String) (lines : List String) (index : Nat) : Request → Prop where
  | line {before after block docs : List String} {line : String} :
      lines = before ++ line :: after → before.length = index → HoldsDirective line →
      EndsWithComments before block → Trimmed block docs →
      RequestAt name lines index ⟨line, docs, label name (index + 1)⟩

/-- What the scan still has to do finds the directives of the lines to come, if what it carries is
the run of comment lines right above them. -/
theorem requestAt_requestsFrom {name : String} {before above rest : List String}
    (habove : EndsWithComments before above) :
    List.Forall₂ (RequestAt name (before ++ rest))
      ((List.range' before.length rest.length).filter fun index =>
        (before ++ rest)[index]?.any (decide <| HoldsDirective ·))
      (requestsFrom name (before.length + 1) above rest) := by
  induction rest generalizing before above with
  | nil => exact .nil
  | cons line rest ih =>
    have hnext : EndsWithComments (before ++ [line])
        (if isComment line = true then above ++ [line] else []) := by
      by_cases hline : isComment line = true
      · rw [if_pos hline]
        exact habove.concat_comment hline
      · rw [if_neg hline]
        exact .concat_other (by simpa using hline)
    have hrest := ih hnext
    rw [List.append_assoc, List.singleton_append, List.length_append,
      List.length_singleton] at hrest
    have hhere : (before ++ line :: rest)[before.length]? = some line := by simp
    rw [List.length_cons, List.range'_succ, List.filter_cons, hhere, Option.any_some]
    simp only [requestsFrom, isDirective_iff, decide_eq_true_eq]
    by_cases hline : HoldsDirective line
    · rw [if_pos hline, if_pos hline]
      exact .cons (.line rfl rfl hline habove (trimmed_docLines above)) hrest
    · rw [if_neg hline, if_neg hline]
      exact hrest

/-- **The scan finds the directives**: one request for each line that holds one, in the order of the
lines, with the comment lines right above it. -/
theorem requestAt_requests (source : Source) :
    List.Forall₂ (RequestAt source.name (Text.lines source.text))
      (directiveIndices (Text.lines source.text)) source.requests := by
  rw [directiveIndices, List.range_eq_range']
  exact requestAt_requestsFrom .nil

end Source

end ForeignWrap
