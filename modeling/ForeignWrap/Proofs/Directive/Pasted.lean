import ForeignWrap.Proofs.Directive.Separator
import ForeignWrap.Proofs.Directive.Span

/-!
# Text that is pasted into a line

A line that is put together from texts has the tokens of these texts, if a gap stands where two of
them meet and no literal is open there. So a text adds to the line whatever tokens it has itself:
one of several words adds several words, and they take the places of those that were meant to stand
there.

## Main definitions

* `ForeignWrap.Directive.exists_spells_of_append`: the tokens before a gap, and those after it.
* `ForeignWrap.Directive.exists_says_of_pasted`: the tokens of a line with a text pasted into it.
-/

namespace ForeignWrap.Directive

/-! ## Texts before and after a gap -/

/-- A gap before a text without quotes is in no token, so a token that begins before it ends there
too. -/
theorem Token.Spelled.exists_between {token : Token} {front after tail : List Char} {c : Char}
    (hspelled : token.Spelled) (hc : isGap c = true) (htail : '"' ∉ tail)
    (h : token.text.toList ++ after = front ++ c :: tail) :
    ∃ between, front = token.text.toList ++ between ∧ after = between ++ c :: tail := by
  obtain ⟨between, hfront, hafter⟩ | ⟨extra, htext, hextra⟩ := List.append_eq_append_iff.1 h
  · exact ⟨between, hfront, hafter⟩
  have hcword := not_isWordChar_of_isGap hc
  have hcquote : c ≠ '"' := by
    rintro rfl
    cases hc
  cases extra with
  | nil => exact ⟨[], by simpa using htext.symm, by simpa using hextra.symm⟩
  | cons d extra =>
    -- The token would go over the gap, so it is a literal and its last quote is in the tail.
    exfalso
    obtain ⟨rfl, rfl⟩ := List.cons.inj hextra
    cases hspelled with
    | @word word _ _ _ hword =>
      have hmem : c ∈ word := by
        rw [String.toList_ofList] at htext
        simp [htext]
      rw [hword c hmem] at hcword
      cases hcword
    | @literal code _ _ _ =>
      have hlast := congrArg List.getLast? htext
      rw [String.toList_ofList, List.getLast?_concat, List.getLast?_append_cons] at hlast
      have hmem := List.mem_of_getLast? hlast.symm
      obtain hquote | hmem := List.mem_cons.1 hmem
      · exact hcquote hquote.symm
      · exact htail (List.mem_append_left _ hmem)

/-- What is spelled before a gap and what is spelled after it are tokens of their own, if no literal
could end there. -/
theorem exists_spells_of_append {start : Nat} {front tail : List Char} {c : Char}
    {tokens : List Token} (h : Spells start (front ++ c :: tail) tokens) (hc : isGap c = true)
    (htail : '"' ∉ tail) :
    ∃ before after place, tokens = before ++ after ∧ Spells start front before ∧
      Spells place tail after := by
  generalize hcs : front ++ c :: tail = cs at h
  induction h generalizing front with
  | done => simp at hcs
  | @gap start d rest tokens hgap hrest ih =>
    cases front with
    | nil =>
      obtain ⟨rfl, rfl⟩ := List.cons.inj hcs
      exact ⟨[], tokens, _, rfl, .done, hrest⟩
    | cons e front =>
      obtain ⟨rfl, happend⟩ := List.cons.inj hcs
      obtain ⟨before, after, place, rfl, hbefore, hafter⟩ := ih happend
      exact ⟨before, after, place, rfl, .gap hgap hbefore, hafter⟩
  | @token token after tokens hspelled hstop hends _ ih =>
    obtain ⟨between, rfl, rfl⟩ := hspelled.exists_between hc htail hcs.symm
    obtain ⟨before, others, place, rfl, hbefore, hothers⟩ := ih rfl
    refine ⟨token :: before, others, place, rfl, .token hspelled hstop ?_ hbefore, hothers⟩
    intro hkind d hd
    refine hends hkind d ?_
    rw [List.head?_append, hd]
    rfl

/-- The word that characters begin with is their first token. -/
theorem Spells.exists_cons_of_word {start : Nat} {word after : List Char} {tokens : List Token}
    (h : Spells start (word ++ after) tokens) (hne : word ≠ [])
    (hword : ∀ c ∈ word, isWordChar c = true)
    (hafter : ∀ c, after.head? = some c → isWordChar c = false) :
    ∃ first others place, tokens = first :: others ∧ first.kind = wordKind first.text ∧
      first.text = String.ofList word ∧ Spells place after others := by
  have hscan := h.tokensFrom_eq_ok
  rw [tokensFrom_word hne hword hafter] at hscan
  obtain ⟨others, hothers, rfl⟩ := map_eq_ok_iff.1 hscan
  exact ⟨_, others, _, rfl, rfl, rfl, tokensFrom_eq_ok_iff.1 hothers⟩

theorem Spells.of_gap {start : Nat} {c : Char} {rest : List Char} {tokens : List Token}
    (h : Spells start (c :: rest) tokens) (hc : isGap c = true) :
    Spells (start + c.utf8Size) rest tokens := by
  have hscan := h.tokensFrom_eq_ok
  rw [tokensFrom, hc] at hscan
  exact tokensFrom_eq_ok_iff.1 hscan

/-- What is spelled at one place of a line is spelled anywhere. -/
theorem Spells.says {start : Nat} {cs : List Char} {tokens : List Token}
    (h : Spells start cs tokens) : Says cs tokens := by
  induction h with
  | done => exact .nil
  | @gap _ c _ _ hgap _ ih => exact .gap (List.forall_mem_singleton.2 hgap) ih
  | token hspelled _ hends _ ih => exact .token hspelled hends ih

/-- The same characters say the same tokens, apart from their places. -/
theorem Says.unplaced_eq {cs : List Char} {tokens others : List Token} (h : Says cs tokens)
    (hothers : Says cs others) : tokens.map Token.unplaced = others.map Token.unplaced := by
  obtain ⟨placed, hspells, hplaced⟩ := h 0
  obtain ⟨placed', hspells', hplaced'⟩ := hothers 0
  have hsame := hspells.tokensFrom_eq_ok.symm.trans hspells'.tokensFrom_eq_ok
  rw [← hplaced, ← hplaced', Except.ok.inj hsame]

/-! ## Text after the beginning of a word -/

/-- A line with a text pasted between the beginning of a word and a gap says that word, then what
the rest of the text says, then the tail. -/
theorem exists_says_of_pasted {start : Nat} {head text tail : List Char} {c : Char}
    {tokens : List Token} (hne : head ≠ []) (hhead : ∀ c ∈ head, isWordChar c = true)
    (hc : isGap c = true) (htail : '"' ∉ tail)
    (h : Spells start (head ++ text ++ c :: tail) tokens) :
    ∃ first rest after, tokens = first :: rest ++ after ∧ first.kind = wordKind first.text ∧
      first.text = String.ofList (head ++ text.takeWhile isWordChar) ∧
      Says (text.dropWhile isWordChar) rest ∧ Says tail after := by
  have hword : ∀ c ∈ head ++ text.takeWhile isWordChar, isWordChar c = true := by
    intro d hd
    obtain hd | hd := List.mem_append.1 hd
    · exact hhead d hd
    · exact List.mem_takeWhile_imp hd
  have hafter : ∀ d, (text.dropWhile isWordChar ++ c :: tail).head? = some d →
      isWordChar d = false := by
    intro d hd
    cases hdrop : text.dropWhile isWordChar with
    | nil =>
      obtain rfl : c = d := by simpa [hdrop] using hd
      exact not_isWordChar_of_isGap hc
    | cons e rest =>
      obtain rfl : e = d := by simpa [hdrop] using hd
      have hfirst : (text.dropWhile isWordChar).head? = some e := by rw [hdrop, List.head?_cons]
      exact head?_dropWhile_isWordChar hfirst
  have hsplit : head ++ text ++ c :: tail =
      (head ++ text.takeWhile isWordChar) ++ (text.dropWhile isWordChar ++ c :: tail) := by
    conv_lhs => rw [← List.takeWhile_append_dropWhile (p := isWordChar) (l := text)]
    simp only [List.append_assoc]
  rw [hsplit] at h
  obtain ⟨first, others, _, rfl, hkind, htext, hothers⟩ :=
    h.exists_cons_of_word (by simp [hne]) hword hafter
  obtain ⟨rest, after, _, rfl, hrest, hspells⟩ := exists_spells_of_append hothers hc htail
  exact ⟨first, rest, after, rfl, hkind, htext, hrest.says, hspells.says⟩

end ForeignWrap.Directive
