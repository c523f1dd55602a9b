import ForeignWrap.Proofs.Code.Comment
import ForeignWrap.Proofs.Text.Line

/-!
# Documentation as it is written

A text that documents something is written as a comment where one can hold it, and else as an
attribute. It is read again as what it says without the spaces at the ends of its lines, unless it
is written as a comment in which some carriage return has no line feed: then it is no code.

## Main definitions

* `ForeignWrap.Layout.keptText`: what is left of a text once it has been written.
* `ForeignWrap.Layout.IsReadable`: the texts whose comments are code.
* `ForeignWrap.Layout.tokens?_comment`: what the comment for a text is read as.
-/

namespace ForeignWrap.Layout

open Text

/-! ## Spaces at the ends of lines -/

theorem exists_trimSpaces (cs : List Char) : ∃ n, cs = trimSpaces cs ++ List.replicate n ' ' := by
  have hspaces : ∀ c ∈ cs.reverse.takeWhile (· = ' '), c = ' ' := fun c hc => by
    simpa using List.mem_takeWhile_imp hc
  have hsplit := congrArg List.reverse
    (List.takeWhile_append_dropWhile (p := (· = ' ')) (l := cs.reverse))
  rw [List.reverse_append, List.reverse_reverse, List.eq_replicate_of_mem hspaces,
    List.reverse_replicate] at hsplit
  exact ⟨_, hsplit.symm⟩

theorem newline_notMem_trimSpaces {cs : List Char} (h : '\n' ∉ cs) : '\n' ∉ trimSpaces cs := by
  obtain ⟨n, hn⟩ := exists_trimSpaces cs
  intro hmem
  rw [hn] at h
  exact h (List.mem_append_left _ hmem)

theorem head?_trimSpaces {cs : List Char} {c : Char} (h : (trimSpaces cs).head? = some c) :
    cs.head? = some c := by
  obtain ⟨n, hn⟩ := exists_trimSpaces cs
  rw [hn, List.head?_append, h]
  rfl

theorem splitLines_ne_nil (cs : List Char) : splitLines cs ≠ [] := by
  fun_cases splitLines cs <;> simp

theorem splitLines_line {line : List Char} (hline : '\n' ∉ line) : splitLines line = [line] := by
  induction line with
  | nil => rfl
  | cons c cs ih =>
    rw [List.mem_cons, not_or] at hline
    rw [splitLines, ih hline.2]
    exact Ne.symm hline.1

theorem splitLines_append {line : List Char} (hline : '\n' ∉ line) (rest : List Char) :
    splitLines (line ++ '\n' :: rest) = line :: splitLines rest := by
  induction line with
  | nil => rfl
  | cons c cs ih =>
    rw [List.mem_cons, not_or] at hline
    rw [List.cons_append, splitLines, ih hline.2]
    exact Ne.symm hline.1

theorem trimLines_line {line : List Char} (hline : '\n' ∉ line) : trimLines line = line := by
  simp [trimLines, splitLines_line hline]

theorem trimLines_append {line : List Char} (hline : '\n' ∉ line) (rest : List Char) :
    trimLines (line ++ '\n' :: rest) = trimSpaces line ++ '\n' :: trimLines rest := by
  obtain ⟨first, more, hmore⟩ := List.exists_cons_of_ne_nil (splitLines_ne_nil rest)
  have hne : (first :: more).dropLast.map trimSpaces ++ (first :: more).getLast?.toList ≠ [] := by
    simp [List.getLast?_cons]
  simp only [trimLines, splitLines_append hline, hmore, List.dropLast_cons_cons, List.map_cons,
    List.getLast?_cons_cons, List.cons_append, List.intercalate_cons_of_ne_nil hne,
    List.append_assoc, List.nil_append]

/-- Texts are looked at one line after another. -/
theorem line_induction {motive : List Char → Prop}
    (last : ∀ line, '\n' ∉ line → motive line)
    (ended : ∀ line rest, '\n' ∉ line → motive rest → motive (line ++ '\n' :: rest))
    (cs : List Char) : motive cs := by
  induction hlength : cs.length using Nat.strong_induction_on generalizing cs with
  | _ n ih =>
    obtain hline | ⟨line, rest, hline, rfl⟩ := eq_line_or_exists_split cs
    · exact last cs hline
    · refine ended line rest hline (ih rest.length ?_ rest rfl)
      rw [← hlength, List.length_append, List.length_cons]
      omega

theorem getLast?_trimLines (cs : List Char) : (trimLines cs).getLast? = cs.getLast? := by
  induction cs using line_induction with
  | last line hline => rw [trimLines_line hline]
  | ended line rest hline ih =>
    rw [trimLines_append hline, List.getLast?_append, List.getLast?_append, List.getLast?_cons,
      List.getLast?_cons, ih]
    rfl

/-- Trimming leaves the beginning of a text, or a line feed there. -/
theorem head?_trimLines {cs : List Char} {c : Char} (h : (trimLines cs).head? = some c)
    (hc : c ≠ '\n') : cs.head? = some c := by
  obtain hline | ⟨line, rest, hline, rfl⟩ := eq_line_or_exists_split cs
  · rwa [trimLines_line hline] at h
  · rw [trimLines_append hline, List.head?_append] at h
    cases hhead : (trimSpaces line).head? with
    | none =>
      rw [hhead] at h
      exact absurd (Option.some.inj h).symm hc
    | some d =>
      rw [hhead] at h
      rw [List.head?_append, head?_trimSpaces hhead]
      exact h

/-! ## Balanced comments -/

theorem commentsBalanced_cons {c : Char} (hslash : c ≠ '/') (hstar : c ≠ '*') (depth : Nat)
    (cs : List Char) : commentsBalanced depth (c :: cs) = commentsBalanced depth cs := by
  rw [commentsBalanced] <;> simp [hslash, hstar]

/-- Two texts that go on with characters which are no part of marks are balanced alike, if the texts
after these are. -/
theorem commentsBalanced_append_cons {c d : Char} {more more' : List Char}
    (hc : c ≠ '/' ∧ c ≠ '*') (hd : d ≠ '/' ∧ d ≠ '*')
    (hmore : ∀ depth, commentsBalanced depth more = commentsBalanced depth more')
    (depth : Nat) (cs : List Char) :
    commentsBalanced depth (cs ++ c :: more) = commentsBalanced depth (cs ++ d :: more') := by
  induction depth, cs using commentsBalanced.induct with
  | case1 depth cs ih => simpa [commentsBalanced] using ih
  | case2 depth cs ih => simp [commentsBalanced, ih]
  | case3 depth e cs hopen hclose ih =>
    have hstep : ∀ {c : Char} {more : List Char}, c ≠ '/' ∧ c ≠ '*' →
        commentsBalanced depth (e :: (cs ++ c :: more)) =
          commentsBalanced depth (cs ++ c :: more) := by
      intro c more hc
      cases cs with
      | nil => rw [commentsBalanced] <;> simp [hc]
      | cons f cs =>
        rw [List.cons_append, commentsBalanced]
        · rintro rest rfl heq
          exact hopen cs rfl (by rw [(List.cons.inj heq).1])
        · rintro rest rfl heq
          exact hclose cs rfl (by rw [(List.cons.inj heq).1])
    rw [List.cons_append, List.cons_append, hstep hc, hstep hd, ih]
  | case4 depth =>
    rw [List.nil_append, List.nil_append, commentsBalanced_cons hc.1 hc.2,
      commentsBalanced_cons hd.1 hd.2, hmore]

theorem commentsBalanced_spaces (n depth : Nat) (cs : List Char) :
    commentsBalanced depth (List.replicate n ' ' ++ cs) = commentsBalanced depth cs := by
  induction n with
  | zero => rfl
  | succ n ih =>
    rw [List.replicate_succ, List.cons_append, commentsBalanced_cons (by decide) (by decide), ih]

/-- Spaces at the ends of lines are no part of marks. -/
theorem commentsBalanced_trimLines (depth : Nat) (cs : List Char) :
    commentsBalanced depth (trimLines cs) = commentsBalanced depth cs := by
  induction cs using line_induction generalizing depth with
  | last line hline => rw [trimLines_line hline]
  | ended line rest hline ih =>
    obtain ⟨n, hn⟩ := exists_trimSpaces line
    rw [trimLines_append hline]
    conv_rhs => rw [hn, List.append_assoc]
    cases n with
    | zero => exact commentsBalanced_append_cons (by decide) (by decide) ih depth _
    | succ n =>
      rw [List.replicate_succ, List.cons_append]
      refine commentsBalanced_append_cons (by decide) (by decide) (fun depth => ?_) depth _
      rw [commentsBalanced_spaces, commentsBalanced_cons (by decide) (by decide), ih]

/-! ## Written texts -/

/-- What is left of a text that documents something, once it has been written: comments have no
spaces at the ends of their lines, and a comment line has no carriage return at its end. -/
def keptText (doc : String) : String :=
  if (commentOf false doc).isNone then doc
  else if '\n' ∈ doc.toList then String.ofList (trimLines doc.toList)
  else String.ofList (dropReturn (trimSpaces doc.toList))

/-- Some carriage return has no line feed right after it. -/
def HasLoneReturn (cs : List Char) : Prop :=
  ∃ before after, cs = before ++ '\r' :: after ∧ after.head? ≠ some '\n'

theorem not_hasLoneReturn_nil : ¬ HasLoneReturn [] := by
  rintro ⟨before, after, h, -⟩
  simp at h

@[simp] theorem hasLoneReturn_cons_iff {c : Char} {cs : List Char} :
    HasLoneReturn (c :: cs) ↔ (c = '\r' ∧ cs.head? ≠ some '\n') ∨ HasLoneReturn cs := by
  constructor
  · rintro ⟨before, after, h, hafter⟩
    cases before with
    | nil =>
      obtain ⟨rfl, rfl⟩ := List.cons.inj h
      exact .inl ⟨rfl, hafter⟩
    | cons b before =>
      obtain ⟨rfl, rfl⟩ := List.cons.inj h
      exact .inr ⟨before, after, rfl, hafter⟩
  · rintro (⟨rfl, hcs⟩ | ⟨before, after, rfl, hafter⟩)
    · exact ⟨[], cs, rfl, hcs⟩
    · exact ⟨c :: before, after, rfl, hafter⟩

theorem returnsPaired_eq_true_iff {cs : List Char} :
    Code.returnsPaired cs = true ↔ ¬ HasLoneReturn cs := by
  induction cs using Code.returnsPaired.induct with
  | case1 => simp [Code.returnsPaired, not_hasLoneReturn_nil]
  | case2 cs ih => simp [Code.returnsPaired, ih]
  | case3 cs hcs =>
    have hhead : cs.head? ≠ some '\n' := by
      rw [ne_eq, List.head?_eq_some_iff]
      rintro ⟨rest, h⟩
      exact hcs rest h
    simp [Code.returnsPaired_return_cons hhead, hhead]
  | case4 c cs _ hc ih =>
    simp [Code.returnsPaired_cons hc, show c ≠ '\r' from hc, ih]

instance (cs : List Char) : Decidable (HasLoneReturn cs) :=
  decidable_of_iff (¬ Code.returnsPaired cs = true) (by rw [returnsPaired_eq_true_iff, not_not])

/-- A text is read again unless it is written as a comment in which some carriage return has no line
feed. The line feed after the comment counts. -/
def IsReadable (doc : String) : Prop :=
  ∀ comment, commentOf false doc = some comment → ¬ HasLoneReturn (comment.toList ++ ['\n'])

instance (doc : String) : Decidable (IsReadable doc) :=
  decidable_of_iff ((commentOf false doc).all fun comment =>
    ¬ HasLoneReturn (comment.toList ++ ['\n'])) (by simp [IsReadable, Option.all_eq_true])

/-- A text of one line is written as a comment line, and one of more lines as a block. -/
theorem commentOf_false_cases {doc comment : String} (h : commentOf false doc = some comment) :
    ('\n' ∉ doc.toList ∧ doc.toList.head? ≠ some '/' ∧
        comment.toList = '/' :: '/' :: '/' :: trimSpaces doc.toList) ∨
      ('\n' ∈ doc.toList ∧ commentsBalanced 0 doc.toList = true ∧
        doc.toList.getLast? ≠ some '/' ∧ doc.toList.head? ≠ some '/' ∧
        doc.toList.head? ≠ some '*' ∧
        comment.toList = '/' :: '*' :: '*' :: (trimLines doc.toList ++ ['*', '/'])) := by
  simp only [commentOf, Bool.false_or, Bool.and_eq_true, Bool.not_eq_true', List.contains_eq_mem,
    decide_eq_true_eq, decide_eq_false_iff_not, fitsInBlockComment, Bool.false_eq_true,
    if_false] at h
  split_ifs at h with hline hblock
  · obtain rfl := Option.some.inj h
    exact .inl ⟨hline.1, hline.2, by simp⟩
  · obtain rfl := Option.some.inj h
    obtain ⟨⟨hbalanced, hend⟩, hslash, hstar⟩ := hblock
    have hlines : '\n' ∈ doc.toList := by
      by_contra hnone
      exact hline ⟨hnone, hslash⟩
    exact .inr ⟨hlines, hbalanced, hend, hslash, hstar, by simp⟩

theorem trimLines_ne_nil {cs : List Char} (h : '\n' ∈ cs) : trimLines cs ≠ [] := by
  obtain hnone | ⟨line, rest, hline, rfl⟩ := eq_line_or_exists_split cs
  · exact absurd h hnone
  · simp [trimLines_append hline]

/-- The comment for a text is read as what is left of the text, or it is no code. -/
theorem tokens?_comment {fuel : Nat} {inside : Option Code.Delimiter} {doc comment : String}
    (h : commentOf false doc = some comment) (rest : List Char) :
    Code.tokens? (fuel + 1) inside (comment.toList ++ '\n' :: rest) =
      if IsReadable doc then
        (Code.tokens? fuel inside rest).map fun (more, after) =>
          (Code.docAttribute false (keptText doc) ++ more, after)
      else none := by
  have hreadable : IsReadable doc ↔ Code.returnsPaired (comment.toList ++ ['\n']) = true := by
    simp [IsReadable, h, returnsPaired_eq_true_iff]
  obtain ⟨hline, hstart, hcomment⟩ | ⟨hlines, hbalanced, hend, hslash, hstar, hcomment⟩ :=
    commentOf_false_cases h
  · have hkept : keptText doc = String.ofList (dropReturn (trimSpaces doc.toList)) := by
      simp [keptText, h, hline]
    have htrim := newline_notMem_trimSpaces hline
    have hhead : (trimSpaces doc.toList).head? ≠ some '/' := fun h => hstart (head?_trimSpaces h)
    have hpaired : Code.returnsPaired (comment.toList ++ ['\n']) =
        Code.returnsPaired (dropReturn (trimSpaces doc.toList)) := by
      rw [hcomment, ← Code.returnsPaired_line htrim]
      rfl
    rw [hcomment, hkept]
    simp only [hreadable, hpaired]
    exact Code.tokens?_lineComment rest htrim hhead
  · have hkept : keptText doc = String.ofList (trimLines doc.toList) := by
      simp [keptText, h, hlines]
    have hpaired : Code.returnsPaired (comment.toList ++ ['\n']) =
        Code.returnsPaired (trimLines doc.toList) := by
      simp only [hcomment, List.cons_append, List.append_assoc, List.nil_append]
      rw [Code.returnsPaired_cons (by decide), Code.returnsPaired_cons (by decide),
        Code.returnsPaired_cons (by decide),
        Code.returnsPaired_append_cons (by decide) (by decide)]
      exact Bool.and_true _
    have hhead : ∀ c, c ≠ '\n' → doc.toList.head? ≠ some c →
        (trimLines doc.toList).head? ≠ some c := fun c hc hne h => hne (head?_trimLines h hc)
    have hbalanced' : commentsBalanced 0 (trimLines doc.toList) = true := by
      rw [commentsBalanced_trimLines, hbalanced]
    have hend' : (trimLines doc.toList).getLast? ≠ some '/' := by
      rwa [getLast?_trimLines]
    rw [hcomment, hkept]
    simp only [hreadable, hpaired, List.cons_append, List.append_assoc, List.nil_append]
    rw [Code.tokens?_blockComment _ (trimLines_ne_nil hlines) hbalanced' hend'
      (hhead '/' (by decide) hslash) (hhead '*' (by decide) hstar), Code.tokens?_spacing rfl]

end ForeignWrap.Layout
