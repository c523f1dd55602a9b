import ForeignWrap.Proofs.Directive.Pasted

/-!
# Lines with a word changed

Another word in place of one of a line is the only token that changes. Where it is a host argument
that is listed before a separator, the line asks for a directive that differs in this argument.

## Main definitions

* `ForeignWrap.Directive.Token.ReplacedIn`: a line with a text in place of one of its tokens.

## Main statements

* `ForeignWrap.Directive.says_of_replacedIn`: the tokens of such a line.
* `ForeignWrap.Directive.ofTokens_of_reworded`: its directive, where the token is a host argument.
-/

namespace ForeignWrap.Directive

/-! ## Tokens of a line -/

/-- The line `line'` is `line` with the text `new` in place of the token. -/
def Token.ReplacedIn (token : Token) (line new line' : String) : Prop :=
  ∃ before after : String, line = before ++ token.text ++ after ∧
    token.start = before.utf8ByteSize ∧ line' = before ++ new ++ after

theorem Token.Spelled.exists_wordChar {token : Token} (h : token.Spelled)
    (hkind : token.kind ≠ .literal) :
    ∃ c rest, token.text.toList = c :: rest ∧ isWordChar c = true := by
  cases h with
  | literal _ => exact absurd rfl hkind
  | @word word _ _ hne hword =>
    obtain ⟨c, rest, rfl⟩ := List.exists_cons_of_ne_nil hne
    exact ⟨c, rest, String.toList_ofList, hword c List.mem_cons_self⟩

/-- A word may stand in place of another one, without any change to the tokens beside it. -/
theorem Spells.exists_replace {start : Nat} {cs : List Char} {front back : List Token}
    {token : Token} (h : Spells start cs (front ++ token :: back)) (hkind : token.kind ≠ .literal) :
    ∃ before after, cs = before ++ (token.text.toList ++ after) ∧
      token.start = start + bytes before ∧ ∀ other : Token, other.Spelled →
        other.kind ≠ .literal →
          Says (before ++ (other.text.toList ++ after)) (front ++ other :: back) := by
  generalize htokens : front ++ token :: back = tokens at h
  induction h generalizing front with
  | done => simp at htokens
  | @gap start c rest tokens hgap _ ih =>
    obtain ⟨before, after, rfl, hstart, hreplace⟩ := ih htokens
    refine ⟨c :: before, after, rfl, ?_, fun other hother hword => ?_⟩
    · rw [hstart, bytes_cons, Nat.add_assoc]
    · have hgap : ∀ d ∈ [c], isGap d = true := List.forall_mem_singleton.2 hgap
      exact (Says.gap hgap (hreplace other hother hword) : Says ([c] ++ _) _)
  | @token first after tokens hspelled hstop hends hrest ih =>
    cases front with
    | nil =>
      obtain ⟨rfl, rfl⟩ := List.cons.inj htokens
      exact ⟨[], after, rfl, rfl, fun other hother _ =>
        .token hother (fun _ => hends hkind) hrest.says⟩
    | cons earlier front =>
      obtain ⟨hfirst, hmore⟩ := List.cons.inj htokens
      subst hfirst
      obtain ⟨before, after, rfl, hstart, hreplace⟩ := ih hmore
      refine ⟨earlier.text.toList ++ before, after, by simp, ?_, fun other hother hword => ?_⟩
      · rw [hstart, hstop, bytes_append, Nat.add_assoc]
      rw [List.append_assoc]
      refine .token hspelled (fun hearlier c hc => ?_) (hreplace other hother hword)
      cases before with
      | cons d before => exact hends hearlier c hc
      | nil =>
        -- No word touches the one before it.
        have htoken : token.Spelled := hrest.spelled_of_mem token (by simp [← hmore])
        obtain ⟨d, rest, htext, hd⟩ := htoken.exists_wordChar hkind
        have hnot := hends hearlier d (by simp [htext])
        rw [hd] at hnot
        cases hnot

/-- A line with a word in place of another one says this word in place of the other one. -/
theorem says_of_replacedIn {line line' : String} {front back : List Token} {token other : Token}
    (htokens : tokenize line = .ok (front ++ token :: back)) (hkind : token.kind ≠ .literal)
    (hother : other.Spelled) (hword : other.kind ≠ .literal)
    (h : token.ReplacedIn line other.text line') : Says line'.toList (front ++ other :: back) := by
  obtain ⟨before, after, hline, hstart, rfl⟩ := h
  obtain ⟨before', after', hline', hstart', hreplace⟩ :=
    (tokenize_eq_ok_iff.1 htokens).exists_replace hkind
  have hsame : before.toList ++ (token.text.toList ++ after.toList) =
      before' ++ (token.text.toList ++ after') := by
    rw [← hline', hline]
    simp
  rw [utf8ByteSize_eq] at hstart
  obtain ⟨rfl, hafter⟩ := eq_of_append_eq_append hsame (by omega)
  rw [List.append_cancel_left_eq] at hafter
  simpa [hafter] using hreplace other hother hword

/-! ## Host arguments -/

section HostArguments

variable {defaultType name result : String} {front back : List Token} {token other : Token}
  {d : Directive} {host host' : HostArg}

/-- The parts of a directive that lists its host arguments before a separator. -/
theorem assemble_explicit_iff {tokens : List Token} (hexplicit : d.passthrough = false) :
    assemble defaultType name result tokens = .ok d ↔
      ∃ hosts separator call, tokens = hosts ++ separator :: call ∧
        (∀ host ∈ hosts, isSeparator host = false) ∧ isSeparator separator = true ∧
        hosts.mapM (hostArgOfToken defaultType) = .ok d.hostArgs ∧
        callOfTokens call = .ok (d.foreignFunction, d.foreignArgs) ∧ d.name = name ∧
        d.result = result ∧ d.variadic = d.hostArgs.getLast?.any (·.variadic) := by
  constructor
  · intro h
    unfold assemble at h
    split at h
    case h_1 separator call hdrop =>
      simp only [bind_eq_ok_iff] at h
      obtain ⟨hosts, hhosts, ⟨function, args⟩, hcall, h⟩ := h
      cases h
      obtain ⟨hsplit, hseparator⟩ := split_at_separator hdrop
      refine ⟨_, separator, call, hsplit, fun host hmem => ?_, isSeparator_iff.2 hseparator, hhosts,
        hcall, rfl, rfl, rfl⟩
      simpa using List.mem_takeWhile_imp hmem
    case h_2 =>
      simp only [bind_eq_ok_iff] at h
      obtain ⟨_, -, h⟩ := h
      cases h
      cases hexplicit
  · rintro ⟨hosts, separator, call, rfl, hhosts, hseparator, hread, hcall, rfl, rfl, hvariadic⟩
    have hbefore : ∀ host ∈ hosts, (!isSeparator host) = true := fun host hmem => by
      rw [hhosts host hmem]
      rfl
    have hstop : (!isSeparator separator) = false := by simp [hseparator]
    unfold assemble
    rw [List.dropWhile_append_of_pos hbefore, List.takeWhile_append_of_pos hbefore,
      List.dropWhile_cons_of_neg (by simp [hstop]), List.takeWhile_cons_of_neg (by simp [hstop]),
      List.append_nil]
    simp only [hread, hcall, bind, Except.bind, pure, Except.pure, ← hvariadic, ← hexplicit]

theorem not_isSeparator_of_hostArgOfToken (h : hostArgOfToken defaultType token = .ok host) :
    isSeparator token = false := by
  unfold hostArgOfToken at h
  split at h
  case isTrue hname => exact not_isSeparator_of_isName hname
  case isFalse => split at h <;> cases h

/-- A token in the place of a host argument is one of those before the separator, and writes it. -/
theorem exists_split_of_mapM {hosts call : List Token} {separator : Token} {hostArgs : List HostArg}
    (htokens : front ++ token :: back = hosts ++ separator :: call)
    (hread : hosts.mapM (hostArgOfToken defaultType) = .ok hostArgs)
    (hhost : hostArgs[front.length]? = some host) :
    ∃ more before after, hosts = front ++ token :: more ∧ back = more ++ separator :: call ∧
      front.mapM (hostArgOfToken defaultType) = .ok before ∧
      hostArgOfToken defaultType token = .ok host ∧
      more.mapM (hostArgOfToken defaultType) = .ok after ∧ hostArgs = before ++ host :: after := by
  have hlength : front.length < hosts.length := by
    rw [(mapM_eq_ok_iff.1 hread).length_eq]
    exact (List.getElem?_eq_some_iff.1 hhost).1
  obtain ⟨rest, rfl, hback⟩ | ⟨extra, hextra, -⟩ := List.append_eq_append_iff.1 htokens
  · cases rest with
    | nil => simp at hlength
    | cons first more =>
      obtain ⟨rfl, hmore⟩ := List.cons.inj hback
      simp only [List.mapM_append, List.mapM_cons, bind_eq_ok_iff] at hread
      obtain ⟨before, hbefore, _, ⟨host, htoken, after, hafter, ⟨⟩⟩, ⟨⟩⟩ := hread
      rw [(mapM_eq_ok_iff.1 hbefore).length_eq, List.getElem?_append_right (Nat.le_refl _),
        Nat.sub_self] at hhost
      obtain rfl := Option.some.inj hhost
      exact ⟨more, before, after, rfl, hmore, hbefore, htoken, hafter, rfl⟩
  · rw [hextra, List.length_append] at hlength
    omega

theorem hostArgOfToken_of_ofTokens {config : Config} {keyword head : Token}
    (hexplicit : d.passthrough = false)
    (h : ofTokens config (keyword :: head :: (front ++ token :: back)) = .ok d)
    (hhost : d.hostArgs[front.length]? = some host) :
    hostArgOfToken config.defaultType token = .ok host := by
  obtain ⟨_, _, _, htokens, hkeyword⟩ := exists_of_ofTokens_eq_ok h
  obtain ⟨rfl, -⟩ := List.cons.inj htokens
  obtain ⟨-, name, result, -, hassemble, -⟩ := (ofTokens_cons_eq_ok_iff hkeyword).1 h
  obtain ⟨hosts, separator, call, htokens, -, -, hread, -⟩ :=
    (assemble_explicit_iff hexplicit).1 hassemble
  obtain ⟨_, _, _, -, -, -, htoken, -⟩ := exists_split_of_mapM htokens hread hhost
  exact htoken

/-- Another token in place of a host argument writes another host argument, and nothing else. -/
theorem assemble_of_reworded (hexplicit : d.passthrough = false)
    (h : assemble defaultType name result (front ++ token :: back) = .ok d)
    (hhost : d.hostArgs[front.length]? = some host)
    (hother : hostArgOfToken defaultType other = .ok host')
    (hvariadic : host'.variadic = host.variadic) :
    ∃ before after, d.hostArgs = before ++ host :: after ∧ before.length = front.length ∧
      assemble defaultType name result (front ++ other :: back) =
        .ok { d with hostArgs := before ++ host' :: after } := by
  obtain ⟨hosts, separator, call, htokens, hhosts, hseparator, hread, hcall, hname, hresult, hd⟩ :=
    (assemble_explicit_iff hexplicit).1 h
  obtain ⟨more, before, after, rfl, rfl, hbefore, -, hafter, hsplit⟩ :=
    exists_split_of_mapM htokens hread hhost
  refine ⟨before, after, hsplit, (mapM_eq_ok_iff.1 hbefore).length_eq.symm,
    (assemble_explicit_iff (d := { d with hostArgs := before ++ host' :: after }) hexplicit).2 ?_⟩
  refine ⟨front ++ other :: more, separator, call, by simp, ?_, hseparator, ?_, hcall, hname,
    hresult,
    ?_⟩
  · simp only [List.forall_mem_append, List.forall_mem_cons] at hhosts ⊢
    exact ⟨hhosts.1, not_isSeparator_of_hostArgOfToken hother, hhosts.2.2⟩
  · simp only [List.mapM_append, List.mapM_cons, bind_eq_ok_iff]
    exact ⟨before, hbefore, _, ⟨host', hother, after, hafter, rfl⟩, rfl⟩
  · rw [hd, hsplit]
    cases after <;> simp [hvariadic]

/-- The directive of a line with another host argument in place of one. -/
theorem ofTokens_of_reworded {config : Config} {keyword head : Token} {d' : Directive}
    (hexplicit : d.passthrough = false)
    (h : ofTokens config (keyword :: head :: (front ++ token :: back)) = .ok d)
    (hhost : d.hostArgs[front.length]? = some host)
    (hother : hostArgOfToken config.defaultType other = .ok host')
    (hvariadic : host'.variadic = host.variadic)
    (h' : ofTokens config (keyword :: head :: (front ++ other :: back)) = .ok d') :
    ∃ before after, d.hostArgs = before ++ host :: after ∧ before.length = front.length ∧
      d' = { d with hostArgs := before ++ host' :: after } := by
  obtain ⟨_, _, _, htokens, hkeyword⟩ := exists_of_ofTokens_eq_ok h
  obtain ⟨rfl, -⟩ := List.cons.inj htokens
  obtain ⟨-, name, result, htyped, hassemble, -⟩ := (ofTokens_cons_eq_ok_iff hkeyword).1 h
  obtain ⟨-, name', result', htyped', hassemble', -⟩ := (ofTokens_cons_eq_ok_iff hkeyword).1 h'
  cases htyped.symm.trans htyped'
  obtain ⟨before, after, hsplit, hplace, hreworded⟩ :=
    assemble_of_reworded hexplicit hassemble hhost hother hvariadic
  exact ⟨before, after, hsplit, hplace, Except.ok.inj (hassemble'.symm.trans hreworded)⟩

end HostArguments

end ForeignWrap.Directive
