import ForeignWrap.Proofs.Directive.Grammar
import ForeignWrap.Proofs.Directive.Span
import ForeignWrap.Proofs.Source

/-!
# Which lines begin with the keyword

The scan of a source and the reader of directives each decide for themselves whether a line begins
with the keyword: the scan by the first word between white space of any kind, the reader by the
first token. They agree on every comment line that holds a directive.

## Main definitions

* `ForeignWrap.Directive.ofLine_eq_missingKeyword_iff`: when the reader misses the keyword.
* `ForeignWrap.Directive.tokenize_of_holdsDirective`: the first token of a line that is told to be a
  directive.
* `ForeignWrap.Directive.isDirective_agrees`: the two decisions agree.
-/

namespace ForeignWrap.Directive

variable {config : Config}

/-! ## Where the keyword is missed

Past the first token, nothing asks for the keyword again. -/

theorem splitTyped_ne_missingKeyword (defaultType text : String) :
    splitTyped defaultType text ≠ .error .missingKeyword := by
  unfold splitTyped
  split
  split <;> simp

theorem hostArgOfToken_ne_missingKeyword (defaultType : String) (token : Token) :
    hostArgOfToken defaultType token ≠ .error .missingKeyword := by
  unfold hostArgOfToken
  split
  · rw [ne_eq, map_eq_error_iff]
    exact splitTyped_ne_missingKeyword defaultType token.text
  · split <;> simp

theorem foreignArgOfToken_ne_missingKeyword (token : Token) :
    foreignArgOfToken token ≠ .error .missingKeyword := by
  unfold foreignArgOfToken
  repeat' split
  all_goals simp

theorem callOfTokens_ne_missingKeyword (tokens : List Token) :
    callOfTokens tokens ≠ .error .missingKeyword := by
  intro h
  cases tokens with
  | nil => cases h
  | cons function args =>
    rw [callOfTokens] at h
    by_cases hname : function.kind.isName = true
    · rw [if_pos hname, map_eq_error_iff, mapM_eq_error_iff] at h
      obtain ⟨_, arg, _, _, _, harg⟩ := h
      exact foreignArgOfToken_ne_missingKeyword arg harg
    · rw [if_neg hname] at h
      cases h

theorem assemble_ne_missingKeyword (defaultType name result : String) (tokens : List Token) :
    assemble defaultType name result tokens ≠ .error .missingKeyword := by
  intro h
  unfold assemble at h
  split at h
  case h_1 separator call hdrop =>
    obtain hhosts | ⟨hosts, -, h⟩ := bind_eq_error_iff.1 h
    · obtain ⟨_, token, _, _, _, htoken⟩ := mapM_eq_error_iff.1 hhosts
      exact hostArgOfToken_ne_missingKeyword defaultType token htoken
    · obtain hcall | ⟨_, -, h⟩ := bind_eq_error_iff.1 h
      · exact callOfTokens_ne_missingKeyword call hcall
      · cases h
  case h_2 hdrop =>
    obtain hcall | ⟨_, -, h⟩ := bind_eq_error_iff.1 h
    · exact callOfTokens_ne_missingKeyword tokens hcall
    · cases h

theorem checkHostArgs_ne_missingKeyword (earlier : List String) (hosts : List HostArg) :
    checkHostArgs earlier hosts ≠ .error .missingKeyword := by
  induction hosts generalizing earlier with
  | nil => simp [checkHostArgs]
  | cons host rest ih =>
    unfold checkHostArgs
    split
    · simp
    · split
      · simp
      · exact ih _

theorem checkForeignArg_ne_missingKeyword (names : List String) (sequence : Option String)
    (isLast : Bool) (arg : ForeignArg) :
    checkForeignArg names sequence isLast arg ≠ .error .missingKeyword := by
  cases arg with
  | literal code => simp [checkForeignArg]
  | reference text cast =>
    unfold checkForeignArg
    split
    repeat' split
    all_goals simp

theorem checkForeignArgs_ne_missingKeyword (names : List String) (sequence : Option String)
    (args : List ForeignArg) : checkForeignArgs names sequence args ≠ .error .missingKeyword := by
  induction args with
  | nil => simp [checkForeignArgs]
  | cons arg rest ih =>
    intro h
    obtain harg | ⟨_, -, hrest⟩ := bind_eq_error_iff.1 h
    · exact checkForeignArg_ne_missingKeyword names sequence _ arg harg
    · exact ih hrest

theorem checkSequenceUsed_ne_missingKeyword (sequence : Option String) (args : List ForeignArg) :
    checkSequenceUsed sequence args ≠ .error .missingKeyword := by
  unfold checkSequenceUsed
  repeat' split
  all_goals simp

theorem validate_ne_missingKeyword (d : Directive) : validate d ≠ .error .missingKeyword := by
  unfold validate
  split
  case h_1 => simp
  case h_2 receiver rest hcons =>
    by_cases hvariadic : receiver.variadic = true
    · rw [if_pos hvariadic]
      rintro ⟨⟩
    · rw [if_neg hvariadic]
      intro h
      obtain hhosts | ⟨_, -, h⟩ := bind_eq_error_iff.1 h
      · exact checkHostArgs_ne_missingKeyword _ _ hhosts
      · obtain hforeign | ⟨_, -, hused⟩ := bind_eq_error_iff.1 h
        · exact checkForeignArgs_ne_missingKeyword _ _ _ hforeign
        · exact checkSequenceUsed_ne_missingKeyword _ _ hused

/-- Tokens miss the keyword exactly if they do not begin with it. -/
theorem ofTokens_eq_missingKeyword_iff {tokens : List Token} :
    ofTokens config tokens = .error .missingKeyword ↔
      ∀ token, tokens.head? = some token → token.kind ≠ .keyword := by
  obtain _ | ⟨keyword, rest⟩ := tokens
  · simp [ofTokens]
  · simp only [List.head?_cons, Option.some.injEq, forall_eq']
    by_cases hkeyword : keyword.kind = .keyword
    · refine iff_of_false (fun h => ?_) (fun h => h hkeyword)
      cases rest with
      | nil =>
        obtain ⟨kind, text, start, stop⟩ := keyword
        obtain rfl : kind = .keyword := hkeyword
        cases h
      | cons head rest =>
        by_cases hname : head.kind.isName = true
        · rw [ofTokens_cons hkeyword hname] at h
          obtain hsplit | ⟨_, -, h⟩ := bind_eq_error_iff.1 h
          · exact splitTyped_ne_missingKeyword _ _ hsplit
          · obtain hread | ⟨d, -, h⟩ := bind_eq_error_iff.1 h
            · exact assemble_ne_missingKeyword _ _ _ _ hread
            · obtain hvalid | ⟨_, -, h⟩ := bind_eq_error_iff.1 h
              · exact validate_ne_missingKeyword d hvalid
              · cases h
        · rw [ofTokens_cons_of_not_isName hkeyword hname] at h
          cases h
    · refine iff_of_true ?_ hkeyword
      obtain ⟨kind, text, start, stop⟩ := keyword
      cases kind with
      | keyword => exact absurd rfl hkeyword
      | separator | literal | word => rfl

/-- A line without tokens does not get as far as to miss the keyword. -/
theorem tokensFrom_ne_missingKeyword (start : Nat) (cs : List Char) :
    tokensFrom start cs ≠ .error .missingKeyword := by
  fun_induction tokensFrom start cs with
  | case1 start => simp
  | case2 start c rest hgap ih => exact ih
  | case3 start rest hclose => simp
  | case4 =>
    rename_i ih
    rw [ne_eq, map_eq_error_iff]
    exact ih
  | case5 start c rest => simp
  | case6 =>
    rename_i ih
    rw [ne_eq, map_eq_error_iff]
    exact ih

/-- **A line misses the keyword exactly if it has tokens and does not begin with that one.** -/
theorem ofLine_eq_missingKeyword_iff {line : String} :
    ofLine config line = .error .missingKeyword ↔
      ∃ tokens, tokenize line = .ok tokens ∧
        ∀ token, tokens.head? = some token → token.kind ≠ .keyword := by
  rw [ofLine, bind_eq_error_iff]
  simp only [ofTokens_eq_missingKeyword_iff]
  constructor
  · rintro (h | h)
    · exact absurd h (tokensFrom_ne_missingKeyword 0 line.toList)
    · exact h
  · exact .inr

/-! ## The first token of a line -/

/-- The keyword as a token of a line that begins with it. -/
def keywordToken : Token :=
  ⟨.keyword, directiveKeyword, 0, bytes directiveKeyword.toList⟩

/-- White space of any kind ends a word, so the first token of a line that holds a directive is the
keyword, if the line has tokens at all. -/
theorem tokenize_of_holdsDirective {line : String} (h : HoldsDirective line) :
    ∃ rest, tokenize line =
      (tokensFrom keywordToken.stop rest).map (keywordToken :: ·) := by
  obtain ⟨rest, rfl, hblank⟩ := h
  have hword : ∀ c ∈ directiveKeyword.toList, isWordChar c = true :=
    List.all_eq_true.1 (by decide +kernel)
  have hafter : ∀ c, rest.toList.head? = some c → isWordChar c = false := by
    intro c hc
    simp [isWordChar, hblank c hc]
  refine ⟨rest.toList, ?_⟩
  rw [tokenize, String.toList_append, tokensFrom_word (by decide +kernel) hword hafter,
    String.ofList_toList]
  simp [keywordToken, wordKind]

theorem isBlank_of_isGap {c : Char} (h : isGap c = true) : Text.isBlank c = true := by
  by_contra hblank
  rw [not_isGap_of_not_isBlank (by simpa using hblank)] at h
  cases h

/-- The characters of a name are word characters. -/
theorem Token.Spelled.isWordChar_of_isName {token : Token} (h : token.Spelled)
    (hname : token.kind.isName = true) :
    token.text.toList ≠ [] ∧ ∀ c ∈ token.text.toList, isWordChar c = true := by
  cases h with
  | literal _ => cases hname
  | word hne hword =>
    rw [String.toList_ofList]
    exact ⟨hne, hword⟩

/-- A word begins with the keyword as a token only if it is the keyword. -/
theorem Token.Spelled.text_eq_of_kind_eq_keyword {token : Token} (h : token.Spelled)
    (hkind : token.kind = .keyword) : token.text = directiveKeyword := by
  cases h with
  | literal _ => cases hkind
  | word _ _ => exact wordKind_eq_keyword_iff.1 hkind

/-- What follows a word and spells a name first is a gap: the name would belong to the word. -/
theorem Spells.isGap_of_name_first {start : Nat} {after : List Char} {head : Token}
    {rest : List Token} (h : Spells start after (head :: rest)) (hname : head.kind.isName = true)
    (hafter : ∀ c, after.head? = some c → isWordChar c = false) :
    ∀ c, after.head? = some c → isGap c = true := by
  cases h with
  | @gap _ c rest _ hgap _ =>
    rintro _ ⟨⟩
    exact hgap
  | @token _ after' _ hspelled _ _ _ =>
    obtain ⟨hne, hword⟩ := hspelled.isWordChar_of_isName hname
    obtain ⟨c, cs, hcs⟩ := List.exists_cons_of_ne_nil hne
    rw [hcs] at hword hafter
    have hinside := hword c List.mem_cons_self
    rw [hafter c rfl] at hinside
    cases hinside

/-- The keyword and a name as the first tokens of a comment line begin it as its first word. -/
theorem holdsDirective_of_tokenize {line : String} {keyword head : Token} {rest : List Token}
    (hcomment : isComment line = true) (htokens : tokenize line = .ok (keyword :: head :: rest))
    (hkeyword : keyword.kind = .keyword) (hname : head.kind.isName = true) :
    HoldsDirective line := by
  obtain ⟨others, rfl⟩ := Text.beginsWith_iff.1 hcomment
  have hspells := tokenize_eq_ok_iff.1 htokens
  rw [String.toList_append] at hspells
  generalize hcs : commentMarker.toList ++ others.toList = cs at hspells
  generalize 0 = start at hspells
  cases hspells with
  | @gap _ c _ _ hgap _ =>
    -- A comment line begins with a slash, which makes no gap.
    obtain rfl : '/' = c := (List.cons.inj hcs).1
    cases hgap
  | @token _ after _ hspelled _ hafter hrest =>
    have htext := hspelled.text_eq_of_kind_eq_keyword hkeyword
    have hgap := hrest.isGap_of_name_first hname (hafter (by simp [hkeyword]))
    refine ⟨String.ofList after, ?_, fun c hc => ?_⟩
    · rw [← String.toList_inj, String.toList_append, hcs, htext, String.toList_append,
        String.toList_ofList]
    · rw [String.toList_ofList] at hc
      exact isBlank_of_isGap (hgap c hc)

/-! ## Both decisions -/

/-- **What the scan takes for a directive, the reader does not refuse for its keyword, and what the
reader accepts of the comment lines, the scan does not pass over.** -/
theorem isDirective_agrees (config : Config) (line : String) :
    (isDirective line = true → ofLine config line ≠ .error .missingKeyword) ∧
      (isComment line = true → ∀ d, ofLine config line = .ok d → isDirective line = true) := by
  constructor
  · intro hline hmissing
    obtain ⟨tokens, htokens, hfirst⟩ := ofLine_eq_missingKeyword_iff.1 hmissing
    obtain ⟨rest, hrest⟩ := tokenize_of_holdsDirective (isDirective_iff.1 hline)
    rw [hrest] at htokens
    obtain ⟨others, -, rfl⟩ := map_eq_ok_iff.1 htokens
    exact hfirst keywordToken rfl rfl
  · intro hcomment d hd
    obtain ⟨tokens, htokens, hd⟩ := bind_eq_ok_iff.1 hd
    obtain ⟨keyword, head, rest, rfl, hkeyword⟩ := exists_of_ofTokens_eq_ok hd
    obtain ⟨hname, -⟩ := (ofTokens_cons_eq_ok_iff hkeyword).1 hd
    exact isDirective_iff.2 (holdsDirective_of_tokenize hcomment htokens hkeyword hname)

/-- A space that the scan takes for white space and the reader does not, and a form feed that both
take for it. -/
theorem isDirective_agrees_on_spaces :
    (isDirective "//wrap:expr\u00a0neg f x" = true ∧
      ofLine {} "//wrap:expr\u00a0neg f x" = .error (.unterminatedLiteral 11) ∧
      ofLine {} "//wrap:expr\u00a0neg f x" ≠ .error .missingKeyword) ∧
    (isComment "//wrap:expr\x0cneg f x\"0\"" = true ∧
      (∃ d, ofLine {} "//wrap:expr\x0cneg f x\"0\"" = .ok d) ∧
      isDirective "//wrap:expr\x0cneg f x\"0\"" = true) := by
  have hspace : isDirective "//wrap:expr\u00a0neg f x" = true := by decide +kernel
  have hcomment : isComment "//wrap:expr\x0cneg f x\"0\"" = true := by decide +kernel
  obtain ⟨d, hd⟩ := exists_eq_ok_of_toBool
    (show (ofLine {} "//wrap:expr\x0cneg f x\"0\"").toBool = true by decide +kernel)
  exact ⟨⟨hspace, by decide +kernel, (isDirective_agrees {} _).1 hspace⟩,
    ⟨hcomment, ⟨d, hd⟩, (isDirective_agrees {} _).2 hcomment d hd⟩⟩

end ForeignWrap.Directive
