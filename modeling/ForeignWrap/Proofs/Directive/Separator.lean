import ForeignWrap.Method.Code
import ForeignWrap.Method.Doc
import ForeignWrap.Method.Wrap
import ForeignWrap.Proofs.Directive.Grammar

/-!
# Directives with and without a separator

Where a line has no separator, the arguments of the call are those of the method too. Such a line
means what it means with these arguments written a second time, between the head and a separator:
it asks for the same method, or has the same error.

## Main definitions

* `ForeignWrap.Directive.spaced`: the line that says some texts.
* `ForeignWrap.Directive.writtenOut`: the line with a separator for one without.
* `ForeignWrap.Directive.ofLine_writtenOut`: both lines mean the same.
-/

namespace ForeignWrap.Directive

/-! ## Tokens apart from their places -/

/-- A token wherever it stands. -/
def Token.unplaced (token : Token) : Token :=
  { token with start := 0, stop := 0 }

theorem mapM_hostArgOfToken_unplaced (defaultType : String) (tokens : List Token) :
    (tokens.map Token.unplaced).mapM (hostArgOfToken defaultType) =
      tokens.mapM (hostArgOfToken defaultType) :=
  List.mapM_map ..

theorem callOfTokens_unplaced (tokens : List Token) :
    callOfTokens (tokens.map Token.unplaced) = callOfTokens tokens := by
  cases tokens with
  | nil => rfl
  | cons function args =>
    have hargs : (args.map Token.unplaced).mapM foreignArgOfToken = args.mapM foreignArgOfToken :=
      List.mapM_map ..
    simp only [callOfTokens, List.map_cons, hargs]
    rfl

theorem assemble_unplaced (defaultType name result : String) (tokens : List Token) :
    assemble defaultType name result (tokens.map Token.unplaced) =
      assemble defaultType name result tokens := by
  have hdrop : (tokens.map Token.unplaced).dropWhile (!isSeparator ·) =
      (tokens.dropWhile (!isSeparator ·)).map Token.unplaced :=
    List.dropWhile_map ..
  have htake : (tokens.map Token.unplaced).takeWhile (!isSeparator ·) =
      (tokens.takeWhile (!isSeparator ·)).map Token.unplaced :=
    List.takeWhile_map ..
  unfold assemble
  rw [hdrop, htake, mapM_hostArgOfToken_unplaced]
  cases tokens.dropWhile (!isSeparator ·) with
  | nil => simp only [List.map_nil, callOfTokens_unplaced]
  | cons separator call => simp only [List.map_cons, callOfTokens_unplaced]

/-- Where tokens stand in their line does not matter to what they say. -/
theorem ofTokens_unplaced (config : Config) (tokens : List Token) :
    ofTokens config (tokens.map Token.unplaced) = ofTokens config tokens := by
  obtain _ | ⟨⟨kind, text, start, stop⟩, _ | ⟨head, rest⟩⟩ := tokens
  · rfl
  · cases kind <;> rfl
  · cases kind with
    | separator | literal | word => rfl
    | keyword =>
      rw [List.map_cons, List.map_cons]
      have hkeyword : (Token.unplaced ⟨.keyword, text, start, stop⟩).kind = .keyword := rfl
      have hkind : head.unplaced.kind = head.kind := rfl
      by_cases hhead : head.kind.isName = true
      · rw [ofTokens_cons hkeyword (hkind ▸ hhead), ofTokens_cons rfl hhead]
        simp only [assemble_unplaced]
        rfl
      · rw [ofTokens_cons_of_not_isName hkeyword (hkind ▸ hhead),
          ofTokens_cons_of_not_isName rfl hhead]

/-! ## Lines with single spaces -/

/-- The line that says some texts, with a space between any two. -/
def spaced (texts : List String) : String :=
  " ".intercalate texts

@[simp] theorem toList_spaced_singleton (text : String) : (spaced [text]).toList = text.toList := by
  simp [spaced]

@[simp] theorem toList_spaced_cons_cons (text next : String) (rest : List String) :
    (spaced (text :: next :: rest)).toList =
      text.toList ++ ' ' :: (spaced (next :: rest)).toList := by
  simp [spaced, String.intercalate_cons_cons]

/-- A token that begins at byte `start`. -/
def Token.placed (token : Token) (start : Nat) : Token :=
  { token with start, stop := start + bytes token.text.toList }

theorem Token.Spelled.placed {token : Token} (h : token.Spelled) (start : Nat) :
    (token.placed start).Spelled := by
  cases h with
  | literal hcode => exact .literal hcode
  | word hne hword => exact .word hne hword

/-- Wherever they begin in their line, characters spell these tokens, apart from their places. -/
def Says (cs : List Char) (tokens : List Token) : Prop :=
  ∀ start, ∃ placed, Spells start cs placed ∧ placed.map Token.unplaced = tokens.map Token.unplaced

theorem Says.nil : Says [] [] :=
  fun _ => ⟨[], .done, rfl⟩

theorem Says.gap {gap cs : List Char} {tokens : List Token} (hgap : ∀ c ∈ gap, isGap c = true)
    (h : Says cs tokens) : Says (gap ++ cs) tokens := by
  induction gap with
  | nil => exact h
  | cons c gap ih =>
    obtain ⟨hc, hgap⟩ := List.forall_mem_cons.1 hgap
    intro start
    obtain ⟨placed, hspells, hplaced⟩ := ih hgap (start + c.utf8Size)
    exact ⟨placed, .gap hc hspells, hplaced⟩

/-- A token may come first if what follows it does not go on with its word. -/
theorem Says.token {token : Token} {after : List Char} {tokens : List Token}
    (htoken : token.Spelled)
    (hafter : token.kind ≠ .literal → ∀ c, after.head? = some c → isWordChar c = false)
    (h : Says after tokens) : Says (token.text.toList ++ after) (token :: tokens) := by
  intro start
  obtain ⟨placed, hspells, hplaced⟩ := h (token.placed start).stop
  refine ⟨token.placed start :: placed, .token (htoken.placed start) rfl hafter hspells, ?_⟩
  rw [List.map_cons, hplaced]
  rfl

/-- The directive of a line is that of the tokens which it says. -/
theorem ofLine_eq_ofTokens {line : String} {tokens : List Token} (h : Says line.toList tokens)
    (config : Config) : ofLine config line = ofTokens config tokens := by
  obtain ⟨placed, hspells, hplaced⟩ := h 0
  rw [ofLine, tokenize_eq_ok_iff.2 hspells, ← ofTokens_unplaced config tokens, ← hplaced,
    ofTokens_unplaced]
  rfl

/-- A line of tokens with single spaces says these tokens: where one ends, a space or nothing
follows. -/
theorem says_spaced {tokens : List Token} (htokens : ∀ token ∈ tokens, token.Spelled) :
    Says (spaced (tokens.map (·.text))).toList tokens := by
  induction tokens with
  | nil => exact .nil
  | cons token rest ih =>
    obtain ⟨htoken, hrest⟩ := List.forall_mem_cons.1 htokens
    cases rest with
    | nil => simpa using Says.token htoken (by simp) .nil
    | cons next rest =>
      have hspace : ∀ c ∈ [' '], isGap c = true := List.forall_mem_singleton.2 rfl
      have hafter : ∀ c, ([' '] ++ (spaced ((next :: rest).map (·.text))).toList).head? = some c →
          isWordChar c = false := by
        rintro c ⟨⟩
        rfl
      simpa using Says.token htoken (fun _ => hafter) (.gap hspace (ih hrest))

/-- The tokens of a line of tokens with single spaces are these tokens. -/
theorem ofLine_spaced {tokens : List Token} (config : Config)
    (htokens : ∀ token ∈ tokens, token.Spelled) :
    ofLine config (spaced (tokens.map (·.text))) = ofTokens config tokens :=
  ofLine_eq_ofTokens (says_spaced htokens) config

/-! ## Both forms of a directive -/

/-- The line with a separator that says the same as one without. -/
def writtenOut (keyword head function : Token) (args : List Token) : String :=
  spaced ([keyword.text, head.text] ++ (args.filter (·.kind.isName)).map (·.text) ++
    [":", function.text] ++ args.map (·.text))

/-- A name among the arguments says the same whether it is read as one of the call or of the method:
the same argument, or the same error. -/
theorem read_name_cases {defaultType : String} {token : Token} (hdefault : defaultType ≠ "")
    (htoken : token.Formed) (hname : token.kind.isName = true) :
    (∃ name cast, foreignArgOfToken token = .ok (.reference name cast) ∧
      hostArgOfToken defaultType token = .ok (hostArg name (cast.getD defaultType))) ∨
    (foreignArgOfToken token = .error (.emptyComponent token.text) ∧
      hostArgOfToken defaultType token = .error (.emptyComponent token.text)) := by
  have htext := htoken.text_ne_empty
  obtain ⟨kind, text, start, stop⟩ := token
  have hword : foreignArgOfToken ⟨kind, text, start, stop⟩ =
      foreignArgOfToken ⟨.word, text, start, stop⟩ := by
    cases kind with
    | word | keyword => rfl
    | separator | literal => cases hname
  rw [hword, hostArgOfToken, if_pos hname, splitTyped]
  cases hcut : Text.cutAt? ':' text with
  | none =>
    refine .inl ⟨text, none, ?_, ?_⟩
    · simp [foreignArgOfToken, hcut, htext]
    · simp [htext, hdefault, Except.map]
  | some parts =>
    obtain ⟨name, cast⟩ := parts
    by_cases hempty : (decide (name = "") || decide (cast = "")) = true
    · right
      simp [foreignArgOfToken, hcut, hempty, Except.map]
    · refine .inl ⟨name, some cast, ?_, ?_⟩
      · simp [foreignArgOfToken, hcut, hempty]
      · simp [hempty, Except.map]

/-- The names among the arguments of a call, read as arguments of the method, are those that the
call implies. Where the call has an error, so have they, and it is the same one. -/
theorem mapM_hostArgOfToken_filter {defaultType : String} {args : List Token}
    (hdefault : defaultType ≠ "") (hargs : ∀ token ∈ args, token.Formed)
    (hbare : ∀ token ∈ args, isSeparator token = false) :
    (args.filter (·.kind.isName)).mapM (hostArgOfToken defaultType) =
      (args.mapM foreignArgOfToken).map (·.filterMap (impliedHostArg defaultType)) := by
  induction args with
  | nil => rfl
  | cons token rest ih =>
    have ih := ih (fun t ht => hargs t (List.mem_cons_of_mem _ ht))
      fun t ht => hbare t (List.mem_cons_of_mem _ ht)
    cases hname : token.kind.isName with
    | true =>
      simp only [List.filter_cons, hname, if_true, List.mapM_cons, ih]
      obtain ⟨name, cast, hforeign, hhost⟩ | ⟨hforeign, hhost⟩ :=
        read_name_cases hdefault (hargs token List.mem_cons_self) hname
      · rw [hforeign, hhost]
        cases rest.mapM foreignArgOfToken <;> rfl
      · rw [hforeign, hhost]
        rfl
    | false =>
      have hkind : token.kind = .literal := by
        have hseparator := hbare token List.mem_cons_self
        cases hkind : token.kind <;> simp_all [isSeparator, TokenKind.isName]
      have hforeign : foreignArgOfToken token = .ok (.literal token.code) := by
        simp [foreignArgOfToken, hkind]
      rw [List.filter_cons_of_neg (by simp [hname]), List.mapM_cons, hforeign, ih]
      cases rest.mapM foreignArgOfToken <;> rfl

/-- The rules do not ask where the host arguments were taken from. -/
theorem validate_passthrough (d : Directive) (passthrough : Bool) :
    validate { d with passthrough } = validate d :=
  rfl

/-- Without a separator, all tokens stand before it. -/
theorem dropWhile_not_isSeparator {tokens : List Token}
    (hbare : ∀ token ∈ tokens, isSeparator token = false) :
    tokens.dropWhile (!isSeparator ·) = [] := by
  rw [List.dropWhile_eq_nil_iff]
  intro token htoken
  simp [hbare token htoken]

/-- Without a separator, the host arguments are taken from the call. -/
theorem passthrough_of_assemble_eq_ok {defaultType name result : String} {tokens : List Token}
    {d : Directive} (hbare : ∀ token ∈ tokens, isSeparator token = false)
    (h : assemble defaultType name result tokens = .ok d) : d.passthrough = true := by
  rw [assemble, dropWhile_not_isSeparator hbare] at h
  obtain ⟨call, -, ⟨⟩⟩ := bind_eq_ok_iff.1 h
  rfl

/-- The argument words of both forms say the same directive. -/
theorem assemble_separate {defaultType name result : String} {function separator : Token}
    {args : List Token} (hdefault : defaultType ≠ "") (hseparator : separator.kind = .separator)
    (hfunction : function.kind.isName = true) (hargs : ∀ token ∈ args, token.Formed)
    (hbare : ∀ token ∈ function :: args, isSeparator token = false) :
    assemble defaultType name result
        (args.filter (·.kind.isName) ++ separator :: function :: args) =
      (assemble defaultType name result (function :: args)).map
        ({ · with passthrough := false }) := by
  have hrest := (List.forall_mem_cons.1 hbare).2
  have hhosts : ∀ token ∈ args.filter (·.kind.isName), (!isSeparator token) = true := by
    intro token htoken
    simp [hrest token (List.mem_of_mem_filter htoken)]
  have hstop : (!isSeparator separator) = false := by
    simp [isSeparator_iff.2 hseparator]
  unfold assemble
  rw [dropWhile_not_isSeparator hbare, List.dropWhile_append_of_pos hhosts,
    List.takeWhile_append_of_pos hhosts, List.dropWhile_cons_of_neg (by simp [hstop]),
    List.takeWhile_cons_of_neg (by simp [hstop]), List.append_nil,
    mapM_hostArgOfToken_filter hdefault hargs hrest]
  simp only [callOfTokens, hfunction, if_true]
  cases args.mapM foreignArgOfToken <;> rfl

/-- Both forms of a line are read alike. -/
theorem ofTokens_separate {config : Config} {keyword head function separator : Token}
    {args : List Token} (hdefault : config.defaultType ≠ "") (hkeyword : keyword.kind = .keyword)
    (hhead : head.kind.isName = true) (hseparator : separator.kind = .separator)
    (hfunction : function.kind.isName = true) (hargs : ∀ token ∈ args, token.Formed)
    (hbare : ∀ token ∈ function :: args, isSeparator token = false) :
    ofTokens config
        (keyword :: head :: (args.filter (·.kind.isName) ++ separator :: function :: args)) =
      (ofTokens config (keyword :: head :: function :: args)).map
        ({ · with passthrough := false }) := by
  rw [ofTokens_cons hkeyword hhead, ofTokens_cons hkeyword hhead]
  cases splitTyped config.defaultType head.text with
  | error e => rfl
  | ok typed =>
    simp only [bind, Except.bind, assemble_separate hdefault hseparator hfunction hargs hbare]
    cases assemble config.defaultType typed.1 typed.2 (function :: args) with
    | error e => rfl
    | ok d =>
      simp only [Except.map, validate_passthrough]
      cases validate d <;> rfl

/-- The separator. -/
def separatorToken : Token :=
  ⟨.separator, ":", 0, 1⟩

theorem spelled_separatorToken : separatorToken.Spelled :=
  @Token.Spelled.word [':'] 0 1 (by simp) (List.forall_mem_singleton.2 rfl)

/-- **A line without a separator means what it means with its arguments written out.** The two lines
have the same error, or they ask for directives that differ in where the host arguments were taken
from, and so for the same call and the same method. -/
theorem ofLine_writtenOut {config : Config} {line : String} {keyword head function : Token}
    {args : List Token} (hdefault : config.defaultType ≠ "")
    (htokens : tokenize line = .ok (keyword :: head :: function :: args))
    (hkeyword : keyword.kind = .keyword) (hhead : head.kind.isName = true)
    (hfunction : function.kind.isName = true) (hargs : ∀ token ∈ args, token.kind ≠ .separator) :
    (∃ e, ofLine config line = .error e ∧
      ofLine config (writtenOut keyword head function args) = .error e) ∨
    ∃ d, ofLine config line = .ok d ∧ d.passthrough = true ∧
      ofLine config (writtenOut keyword head function args) = .ok { d with passthrough := false } ∧
      Call.bind config { d with passthrough := false } = Call.bind config d ∧
      ∀ docs, Method.ofDirective config { d with passthrough := false } docs =
        Method.ofDirective config d docs := by
  have hspelled := (tokenize_eq_ok_iff.1 htokens).spelled_of_mem
  have hbare : ∀ token ∈ function :: args, isSeparator token = false :=
    List.forall_mem_cons.2 ⟨not_isSeparator_of_isName hfunction, fun token htoken => by
      simp [isSeparator, hargs token htoken]⟩
  have hformed : ∀ token ∈ args, token.Formed := fun token htoken =>
    (hspelled token (by simp [htoken])).formed
  have hwritten : ∀ token ∈ keyword :: head ::
      (args.filter (·.kind.isName) ++ separatorToken :: function :: args), token.Spelled := by
    simp only [List.forall_mem_cons, List.forall_mem_append] at hspelled ⊢
    obtain ⟨hkey, hname, hcall, hrest⟩ := hspelled
    exact ⟨hkey, hname, fun token htoken => hrest token (List.mem_of_mem_filter htoken),
      spelled_separatorToken, hcall, hrest⟩
  have hline : ofLine config line = ofTokens config (keyword :: head :: function :: args) := by
    rw [ofLine, htokens]
    rfl
  have htext : writtenOut keyword head function args = spaced ((keyword :: head ::
      (args.filter (·.kind.isName) ++ separatorToken :: function :: args)).map (·.text)) := by
    simp [writtenOut, separatorToken]
  rw [htext, ofLine_spaced config hwritten,
    ofTokens_separate hdefault hkeyword hhead rfl hfunction hformed hbare, hline]
  cases hread : ofTokens config (keyword :: head :: function :: args) with
  | error e => exact .inl ⟨e, rfl, rfl⟩
  | ok d =>
    obtain ⟨-, name, result, -, hassemble, -⟩ := (ofTokens_cons_eq_ok_iff hkeyword).1 hread
    exact .inr ⟨d, rfl, passthrough_of_assemble_eq_ok hbare hassemble, rfl, rfl, fun _ => rfl⟩

/-- A line with code, a cast and a sequence, and the same line written out. -/
theorem ofLine_of_apply_written_out :
    ∃ d, ofLine {} "//wrap:expr apply:Bool Z3_mk_apply f \"0\" n:c_uint xs..." = .ok d ∧
      d.hostArgs = [⟨"f", "Expr", false⟩, ⟨"n", "c_uint", false⟩, ⟨"xs", "Expr", true⟩] ∧
      ofLine {} "//wrap:expr apply:Bool f n:c_uint xs... : Z3_mk_apply f \"0\" n:c_uint xs..." =
        .ok { d with passthrough := false } ∧
      ∀ docs, Method.ofDirective {} { d with passthrough := false } docs =
        Method.ofDirective {} d docs := by
  have htokens : tokenize "//wrap:expr apply:Bool Z3_mk_apply f \"0\" n:c_uint xs..." = .ok
      [⟨.keyword, "//wrap:expr", 0, 11⟩, ⟨.word, "apply:Bool", 12, 22⟩,
        ⟨.word, "Z3_mk_apply", 23, 34⟩, ⟨.word, "f", 35, 36⟩, ⟨.literal, "\"0\"", 37, 40⟩,
        ⟨.word, "n:c_uint", 41, 49⟩, ⟨.word, "xs...", 50, 55⟩] := by decide +kernel
  have hread : ofLine {} "//wrap:expr apply:Bool Z3_mk_apply f \"0\" n:c_uint xs..." = .ok
      ⟨"apply", "Bool", [⟨"f", "Expr", false⟩, ⟨"n", "c_uint", false⟩, ⟨"xs", "Expr", true⟩],
        "Z3_mk_apply", [.reference "f" none, .literal "0", .reference "n" (some "c_uint"),
          .reference "xs..." none], true, true⟩ := by decide +kernel
  have hdefault : ({} : Config).defaultType ≠ "" := by decide
  obtain ⟨e, he, -⟩ | ⟨d, hd, -, hwritten, -, hmethod⟩ :=
    ofLine_writtenOut hdefault htokens rfl rfl rfl (by simp)
  · exact absurd (hread.symm.trans he) (by simp)
  · refine ⟨d, hd, ?_, hwritten, hmethod⟩
    obtain rfl := Except.ok.inj (hread.symm.trans hd)
    rfl

end ForeignWrap.Directive
