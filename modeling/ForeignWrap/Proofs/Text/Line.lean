import ForeignWrap.Proofs.Text.Cut
import ForeignWrap.Text.Blank
import Mathlib.Data.List.Basic
import Mathlib.Data.List.Count
import Mathlib.Data.List.TakeWhile

/-!
# The lines of a text

A line is what stands between line feeds. Its number is the number of line feeds before it, whatever
the lines before it hold.

## Main definitions

* `ForeignWrap.Text.LineAt`: a line of a text, by the number of line feeds before it.
* `ForeignWrap.Text.getElem?_charLines_eq_some_iff`: the lines of a text are these, in order.
-/

namespace ForeignWrap.Text

/-- What comes before a line: nothing, or text up to a line feed. -/
def EndsLine (before : List Char) : Prop :=
  ∀ c, before.getLast? = some c → c = '\n'

/-- A line of a text, which `index` line feeds come before. A carriage return right before its line
feed is not part of it. -/
inductive LineAt : (cs : List Char) → (index : Nat) → (line : List Char) → Prop where
  | ended {before line after : List Char} : EndsLine before → '\n' ∉ line →
      LineAt (before ++ (line ++ '\n' :: after)) (before.count '\n') (dropReturn line)
  | last {before line : List Char} : EndsLine before → '\n' ∉ line → line ≠ [] →
      LineAt (before ++ line) (before.count '\n') line

theorem EndsLine.nil : EndsLine [] := by
  simp [EndsLine]

/-- Lines before the text before a line are before it too. -/
theorem EndsLine.ended {before : List Char} (h : EndsLine before) (line : List Char) :
    EndsLine (line ++ '\n' :: before) := by
  intro c hc
  cases before with
  | nil => simpa using hc.symm
  | cons b before =>
    refine h c ?_
    rwa [List.getLast?_append_of_ne_nil _ (by simp), List.getLast?_cons_cons] at hc

/-- A line has no line feed inside. -/
theorem LineAt.newline_notMem {cs line : List Char} {index : Nat} (h : LineAt cs index line) :
    '\n' ∉ line := by
  cases h with
  | @ended before line after hbefore hline =>
    intro hmem
    unfold dropReturn at hmem
    split at hmem
    · exact hline (List.dropLast_subset _ hmem)
    · exact hline hmem
  | last hbefore hline hne => exact hline

/-- A line feed puts the lines after it one further. -/
theorem LineAt.succ {cs line : List Char} {index : Nat} (h : LineAt cs index line)
    {first : List Char} (hfirst : '\n' ∉ first) :
    LineAt (first ++ '\n' :: cs) (index + 1) line := by
  have hcount : ∀ before : List Char,
      (first ++ '\n' :: before).count '\n' = before.count '\n' + 1 := by
    intro before
    rw [List.count_append, List.count_eq_zero_of_not_mem hfirst, List.count_cons_self]
    omega
  cases h with
  | @ended before line after hbefore hline =>
    have h : LineAt ((first ++ '\n' :: before) ++ (line ++ '\n' :: after)) _ (dropReturn line) :=
      .ended (hbefore.ended first) hline
    rw [hcount] at h
    simpa using h
  | @last before line hbefore hline hne =>
    have h := LineAt.last (hbefore.ended first) hline hne
    rw [hcount] at h
    simpa using h

/-! ## Steps of the cut into lines -/

theorem takeWhile_line {line : List Char} (hline : '\n' ∉ line) (after : List Char) :
    (line ++ '\n' :: after).takeWhile (· != '\n') = line ∧
      (line ++ '\n' :: after).dropWhile (· != '\n') = '\n' :: after := by
  have hpos : ∀ c ∈ line, (c != '\n') = true := by
    intro c hc
    have hne : c ≠ '\n' := fun h => hline (h ▸ hc)
    simpa using hne
  rw [List.takeWhile_append_of_pos hpos, List.dropWhile_append_of_pos hpos]
  simp

/-- The text up to the first line feed is the first line. -/
theorem charLines_ended {line : List Char} (hline : '\n' ∉ line) (after : List Char) :
    charLines (line ++ '\n' :: after) = dropReturn line :: charLines after := by
  obtain ⟨htake, hdrop⟩ := takeWhile_line hline after
  obtain ⟨c, rest, hcs⟩ : ∃ c rest, line ++ '\n' :: after = c :: rest :=
    List.exists_cons_of_ne_nil (by simp)
  rw [hcs] at htake hdrop ⊢
  rw [charLines]
  split
  case h_1 hnil => simp [hdrop] at hnil
  case h_2 hcons =>
    rw [hdrop] at hcons
    obtain rfl := (List.cons.inj hcons).2
    rw [htake]

/-- A text without line feeds is one line, unless it is empty. -/
theorem charLines_last {line : List Char} (hline : '\n' ∉ line) (hne : line ≠ []) :
    charLines line = [line] := by
  obtain ⟨c, rest, rfl⟩ := List.exists_cons_of_ne_nil hne
  have hpos : ∀ d ∈ c :: rest, (d != '\n') = true := by
    intro d hd
    have hne : d ≠ '\n' := fun h => hline (h ▸ hd)
    simpa using hne
  have htake : (c :: rest).takeWhile (· != '\n') = c :: rest := List.takeWhile_eq_self_iff.2 hpos
  have hdrop : (c :: rest).dropWhile (· != '\n') = [] := List.dropWhile_eq_nil_iff.2 hpos
  rw [charLines]
  split
  case h_1 => rw [htake]
  case h_2 hcons => simp [hdrop] at hcons

/-- A text without line feeds, or its first line and what follows it. -/
theorem eq_line_or_exists_split (cs : List Char) :
    '\n' ∉ cs ∨ ∃ line after, '\n' ∉ line ∧ cs = line ++ '\n' :: after := by
  cases hcut : cutCharsAt? '\n' cs with
  | none => exact .inl (cutCharsAt?_eq_none_iff.1 hcut)
  | some parts =>
    obtain ⟨hsplit, hline⟩ := cutCharsAt?_eq_some_iff.1 hcut
    exact .inr ⟨parts.1, parts.2, hline, hsplit⟩

/-! ## All lines -/

/-- There is one line for each line feed of the text before a line. -/
theorem exists_charLines_append {before : List Char} (hbefore : EndsLine before)
    (rest : List Char) :
    ∃ lines, lines.length = before.count '\n' ∧
      charLines (before ++ rest) = lines ++ charLines rest := by
  induction hlength : before.length using Nat.strong_induction_on generalizing before with
  | _ n ih =>
    obtain hnone | ⟨line, after, hline, rfl⟩ := eq_line_or_exists_split before
    · -- What ends with a line feed has one, so there is nothing before the line.
      have hnil : before = [] := by
        by_contra hne
        have hlast := hbefore _ (List.getLast?_eq_getLast_of_ne_nil hne)
        exact hnone (hlast ▸ List.getLast_mem hne)
      subst hnil
      exact ⟨[], rfl, rfl⟩
    · have hafter : EndsLine after := by
        intro c hc
        refine hbefore c ?_
        rw [List.getLast?_append_of_ne_nil _ (by simp)]
        cases after with
        | nil => cases hc
        | cons b after => rwa [List.getLast?_cons_cons]
      have hless : after.length < n := by
        rw [← hlength, List.length_append, List.length_cons]
        omega
      obtain ⟨lines, hlines, hcut⟩ := ih after.length hless hafter rfl
      refine ⟨dropReturn line :: lines, ?_, ?_⟩
      · rw [List.length_cons, hlines, List.count_append, List.count_eq_zero_of_not_mem hline,
          List.count_cons_self]
        omega
      · rw [List.append_assoc, List.cons_append, charLines_ended hline, hcut, List.cons_append]

/-- **The lines of a text are numbered by the line feeds before them.** -/
theorem getElem?_charLines_eq_some_iff {cs line : List Char} {index : Nat} :
    (charLines cs)[index]? = some line ↔ LineAt cs index line := by
  constructor
  · intro h
    induction hlength : cs.length using Nat.strong_induction_on generalizing cs index with
    | _ n ih =>
      obtain hnone | ⟨first, after, hfirst, rfl⟩ := eq_line_or_exists_split cs
      · by_cases hne : cs = []
        · rw [hne, charLines] at h
          simp at h
        · rw [charLines_last hnone hne] at h
          obtain ⟨rfl, rfl⟩ : index = 0 ∧ cs = line := by simpa [List.getElem?_singleton] using h
          exact .last .nil hnone hne
      · rw [charLines_ended hfirst] at h
        cases index with
        | zero =>
          obtain rfl : dropReturn first = line := by simpa using h
          exact .ended .nil hfirst
        | succ index =>
          have hless : after.length < n := by
            rw [← hlength, List.length_append, List.length_cons]
            omega
          exact (ih after.length hless (by simpa using h) rfl).succ hfirst
  · rintro (⟨hbefore, hline⟩ | ⟨hbefore, hline, hne⟩)
    · obtain ⟨lines, hlines, hcut⟩ := exists_charLines_append hbefore (_ ++ '\n' :: _)
      rw [hcut, ← hlines, charLines_ended hline]
      simp
    · obtain ⟨lines, hlines, hcut⟩ := exists_charLines_append hbefore _
      rw [hcut, ← hlines, charLines_last hline hne]
      simp

theorem getElem?_lines_eq_some_iff {s line : String} {index : Nat} :
    (lines s)[index]? = some line ↔ LineAt s.toList index line.toList := by
  rw [lines, List.getElem?_map, Option.map_eq_some_iff, ← getElem?_charLines_eq_some_iff]
  constructor
  · rintro ⟨cs, hcs, rfl⟩
    rw [hcs, String.toList_ofList]
  · intro h
    exact ⟨line.toList, h, String.ofList_toList⟩

end ForeignWrap.Text
