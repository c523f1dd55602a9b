import ForeignWrap.Proofs.Directive.Separator
import ForeignWrap.Proofs.Directive.Span

/-!
# Gaps between tokens

How much white space stands before, between and after the tokens of a line does not matter, as long
as two words do not touch. A literal may touch what is beside it, since its quotes end it.

## Main definitions

* `ForeignWrap.Directive.woven`: texts with gaps before, between and after them.
* `ForeignWrap.Directive.KeepsApart`: gaps that keep tokens apart.
* `ForeignWrap.Directive.tokenize_woven`: whatever the gaps are, the line says the same.
-/

namespace ForeignWrap.Directive

/-- Texts with gaps before, between and after them. -/
def woven : (gaps texts : List String) → String
  | gap :: gaps, text :: texts => gap ++ text ++ woven gaps texts
  | gap :: _, [] => gap
  | [], _ => ""

/-- Gaps of plain white space that keep tokens apart, one before the first token and one after each
of them. -/
structure KeepsApart (gaps : List String) (tokens : List Token) : Prop where
  length_eq : gaps.length = tokens.length + 1
  isGap : ∀ gap ∈ gaps, ∀ c ∈ gap.toList, isGap c = true
  /-- Two tokens touch only if one of them is a literal. -/
  touching : ∀ (i : Nat) (first second : Token), tokens[i]? = some first →
    tokens[i + 1]? = some second → gaps[i + 1]? = some "" →
    first.kind = .literal ∨ second.kind = .literal

section Gaps

variable {gap : String} {gaps : List String} {token : Token} {tokens : List Token}

theorem KeepsApart.tail (h : KeepsApart (gap :: gaps) (token :: tokens)) :
    KeepsApart gaps tokens where
  length_eq := by simpa using h.length_eq
  isGap := fun g hg => h.isGap g (List.mem_cons_of_mem _ hg)
  touching := fun i first second hfirst hsecond hgap =>
    h.touching (i + 1) first second (by simpa using hfirst) (by simpa using hsecond)
      (by simpa using hgap)

/-- Where the code of a literal begins, no word goes on. -/
theorem Token.Spelled.not_isWordChar_head (htoken : token.Spelled) (hkind : token.kind = .literal)
    {after : List Char} {c : Char} (hc : (token.text.toList ++ after).head? = some c) :
    isWordChar c = false := by
  obtain ⟨code, hcode⟩ := htoken.formed.quoted hkind
  obtain rfl : '"' = c := by simpa [hcode] using hc
  rfl

/-- After a word comes something that does not go on with it. -/
theorem KeepsApart.not_isWordChar_after (h : KeepsApart (gap :: gaps) (token :: tokens))
    (htokens : ∀ token ∈ tokens, token.Spelled) (hkind : token.kind ≠ .literal) :
    ∀ c, (woven gaps (tokens.map (·.text))).toList.head? = some c → isWordChar c = false := by
  intro c hc
  cases gaps with
  | nil => simp [woven] at hc
  | cons next gaps =>
    have hnext : ∀ c ∈ next.toList, ForeignWrap.Directive.isGap c = true :=
      h.isGap next (by simp)
    by_cases hempty : next = ""
    · subst hempty
      cases tokens with
      | nil => simp [woven] at hc
      | cons second tokens =>
        have hliteral : second.kind = .literal :=
          (h.touching 0 token second rfl rfl rfl).resolve_left hkind
        rw [List.map_cons, woven, String.empty_append, String.toList_append] at hc
        exact (htokens second List.mem_cons_self).not_isWordChar_head hliteral hc
    · obtain ⟨d, rest, hd⟩ := List.exists_cons_of_ne_nil fun h => hempty (String.toList_inj.1 h)
      have hwoven : ∃ more, (woven (next :: gaps) (tokens.map (·.text))).toList = d :: more := by
        cases tokens <;> simp [woven, hd]
      obtain ⟨more, hmore⟩ := hwoven
      obtain rfl : d = c := by simpa [hmore] using hc
      exact not_isWordChar_of_isGap (hnext d (by simp [hd]))

/-- Tokens with gaps that keep them apart are said by their line. -/
theorem says_woven (htokens : ∀ token ∈ tokens, token.Spelled) (hgaps : KeepsApart gaps tokens) :
    Says (woven gaps (tokens.map (·.text))).toList tokens := by
  induction tokens generalizing gaps with
  | nil =>
    obtain ⟨gap, rfl⟩ := List.length_eq_one_iff.1 hgaps.length_eq
    simpa [woven] using Says.gap (hgaps.isGap gap List.mem_cons_self) .nil
  | cons token tokens ih =>
    obtain _ | ⟨gap, gaps⟩ := gaps
    · exact absurd hgaps.length_eq (by simp)
    obtain ⟨htoken, hrest⟩ := List.forall_mem_cons.1 htokens
    have hspelled := Says.token htoken (hgaps.not_isWordChar_after hrest) (ih hrest hgaps.tail)
    simpa [woven] using Says.gap (hgaps.isGap gap List.mem_cons_self) hspelled

end Gaps

/-- **Spacing does not matter.** With any gaps that keep its tokens apart, a line has the same kinds
of tokens with the same texts, and so it has the same directive or the same error. -/
theorem tokenize_woven {line : String} {tokens : List Token} {gaps : List String}
    (h : tokenize line = .ok tokens) (hgaps : KeepsApart gaps tokens) :
    (∃ others, tokenize (woven gaps (tokens.map (·.text))) = .ok others ∧
      others.map (·.kind) = tokens.map (·.kind) ∧ others.map (·.text) = tokens.map (·.text)) ∧
    ∀ config, ofLine config (woven gaps (tokens.map (·.text))) = ofLine config line := by
  have hspelled := says_woven (tokenize_eq_ok_iff.1 h).spelled_of_mem hgaps
  constructor
  · obtain ⟨others, hspells, hothers⟩ := hspelled 0
    refine ⟨others, tokenize_eq_ok_iff.2 hspells, ?_, ?_⟩
    · simpa [Function.comp_def, Token.unplaced] using congrArg (List.map (·.kind)) hothers
    · simpa [Function.comp_def, Token.unplaced] using congrArg (List.map (·.text)) hothers
  · intro config
    rw [ofLine_eq_ofTokens hspelled, ofLine, h]
    rfl

/-- A line in which every gap that may be empty is, and the others are tabs, form feeds and line
ends. -/
theorem tokenize_woven_of_touching_literals :
    ∃ others, tokenize "//wrap:expr\tf\r\nZ3_f\x0cx\"0\"\"1\"y" = .ok others ∧
      others.map (·.text) = ["//wrap:expr", "f", "Z3_f", "x", "\"0\"", "\"1\"", "y"] ∧
      ∀ config, ofLine config "//wrap:expr\tf\r\nZ3_f\x0cx\"0\"\"1\"y" =
        ofLine config "//wrap:expr f Z3_f x \"0\" \"1\" y" := by
  have htokens : tokenize "//wrap:expr f Z3_f x \"0\" \"1\" y" = .ok
      [⟨.keyword, "//wrap:expr", 0, 11⟩, ⟨.word, "f", 12, 13⟩, ⟨.word, "Z3_f", 14, 18⟩,
        ⟨.word, "x", 19, 20⟩, ⟨.literal, "\"0\"", 21, 24⟩, ⟨.literal, "\"1\"", 25, 28⟩,
        ⟨.word, "y", 29, 30⟩] := by decide +kernel
  have hgaps : KeepsApart ["", "\t", "\r\n", "\x0c", "", "", "", ""]
      [⟨.keyword, "//wrap:expr", 0, 11⟩, ⟨.word, "f", 12, 13⟩, ⟨.word, "Z3_f", 14, 18⟩,
        ⟨.word, "x", 19, 20⟩, ⟨.literal, "\"0\"", 21, 24⟩, ⟨.literal, "\"1\"", 25, 28⟩,
        ⟨.word, "y", 29, 30⟩] := by
    refine ⟨rfl, by simp [isGap], ?_⟩
    intro i first second hfirst hsecond hgap
    obtain hi | hi | hi : i < 3 ∨ (i = 3 ∨ i = 4 ∨ i = 5) ∨ 6 ≤ i := by omega
    · obtain rfl | rfl | rfl : i = 0 ∨ i = 1 ∨ i = 2 := by omega
      all_goals simp at hgap
    · obtain rfl | rfl | rfl := hi
      all_goals
        simp at hfirst hsecond
        simp [← hfirst, ← hsecond]
    · rw [List.getElem?_eq_none (by simpa using hi)] at hsecond
      cases hsecond
  obtain ⟨⟨others, hothers, -, htexts⟩, hline⟩ := tokenize_woven htokens hgaps
  exact ⟨others, hothers, htexts, hline⟩

end ForeignWrap.Directive
