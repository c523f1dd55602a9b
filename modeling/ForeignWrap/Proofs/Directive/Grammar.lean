import ForeignWrap.Directive.Reader
import ForeignWrap.Proofs.Directive.Token
import ForeignWrap.Proofs.Directive.Validity
import Mathlib.Data.List.TakeWhile

/-!
# The grammar of directives

A directive line is a keyword, a head and a call, with host arguments and a separator between head
and call or without. The grammar says which directive tokens write, and the reader of directives
accepts exactly the tokens that write a valid one.

## Main definitions

* `ForeignWrap.Directive.Typed`: a name with its type, if one is written.
* `ForeignWrap.Directive.HostWord`, `ForeignWrap.Directive.ForeignWord`: what a token writes among
  the arguments.
* `ForeignWrap.Directive.Writes`: which directive tokens write.
* `ForeignWrap.Directive.ofTokens_eq_ok_iff_writes`: the reader reads what is written.
-/

namespace ForeignWrap.Directive

/-! ## Words -/

/-- `text` says a name and a type. Without a colon the type is the default one; else the first colon
stands between them, and neither is empty. -/
inductive Typed (defaultType : String) : (text name type : String) → Prop where
  | bare {name : String} : ':' ∉ name.toList → Typed defaultType name name defaultType
  | colon {name type : String} : ':' ∉ name.toList → name ≠ "" → type ≠ "" →
      Typed defaultType (name ++ ":" ++ type) name type

/-- A token that writes a host argument. -/
inductive HostWord (defaultType : String) : Token → HostArg → Prop where
  | word {token : Token} {text type base : String} {marked : Bool} :
      token.kind.isName = true → Typed defaultType token.text text type → Marked text base marked →
      HostWord defaultType token ⟨base, type, marked⟩

/-- A token that writes an argument of the call. A reference keeps its marker. -/
inductive ForeignWord : Token → ForeignArg → Prop where
  | literal {token : Token} {code : String} :
      token.kind = .literal → token.text = "\"" ++ code ++ "\"" → ForeignWord token (.literal code)
  | bare {token : Token} :
      token.kind.isName = true → ':' ∉ token.text.toList →
      ForeignWord token (.reference token.text none)
  | cast {token : Token} {name type : String} :
      token.kind.isName = true → token.text = name ++ ":" ++ type → ':' ∉ name.toList →
      name ≠ "" → type ≠ "" → ForeignWord token (.reference name (some type))

/-- The host arguments that the arguments of a call imply: the references among them in order, each
of the type that it is cast to, if there is one. -/
inductive Implied (defaultType : String) : List ForeignArg → List HostArg → Prop where
  | nil : Implied defaultType [] []
  | literal {code : String} {args : List ForeignArg} {hosts : List HostArg} :
      Implied defaultType args hosts → Implied defaultType (.literal code :: args) hosts
  | reference {text base : String} {marked : Bool} {cast : Option String} {args : List ForeignArg}
      {hosts : List HostArg} :
      Marked text base marked → Implied defaultType args hosts →
      Implied defaultType (.reference text cast :: args)
        (⟨base, cast.getD defaultType, marked⟩ :: hosts)

/-! ## Directives -/

/-- The words of a call: its function, and its arguments. -/
inductive CallWords (d : Directive) : List Token → Prop where
  | call {function : Token} {args : List Token} :
      function.kind.isName = true → function.text = d.foreignFunction →
      List.Forall₂ ForeignWord args d.foreignArgs → CallWords d (function :: args)

/-- The words after the head: host arguments up to a separator and the call, or the call alone. -/
inductive ArgumentWords (defaultType : String) (d : Directive) : List Token → Prop where
  | separate {hosts call : List Token} {separator : Token} :
      List.Forall₂ (HostWord defaultType) hosts d.hostArgs → separator.kind = .separator →
      CallWords d call → d.passthrough = false →
      ArgumentWords defaultType d (hosts ++ separator :: call)
  | together {call : List Token} :
      CallWords d call → Implied defaultType d.foreignArgs d.hostArgs → d.passthrough = true →
      ArgumentWords defaultType d call

/-- The directive that tokens write. -/
inductive Writes (defaultType : String) : List Token → Directive → Prop where
  | line {keyword head : Token} {rest : List Token} {d : Directive} :
      keyword.kind = .keyword → head.kind.isName = true →
      Typed defaultType head.text d.name d.result → ArgumentWords defaultType d rest →
      d.variadic = d.hostArgs.getLast?.any (·.variadic) →
      Writes defaultType (keyword :: head :: rest) d

/-! ## Reading words -/

theorem cutAt?_colon_iff {text name type : String} :
    Text.cutAt? ':' text = some (name, type) ↔ text = name ++ ":" ++ type ∧ ':' ∉ name.toList :=
  Text.cutAt?_eq_some_iff

/-- A text says the name and the type that it is cut into, if neither is empty. -/
theorem typed_iff {defaultType text name type : String} (hdefault : defaultType ≠ "")
    (htext : text ≠ "") :
    Typed defaultType text name type ↔
      (Text.cutAt? ':' text).getD (text, defaultType) = (name, type) ∧ name ≠ "" ∧ type ≠ "" := by
  constructor
  · rintro (hcolon | ⟨hcolon, hname, htype⟩)
    · rw [Text.cutAt?_eq_none_iff.2 hcolon]
      exact ⟨rfl, htext, hdefault⟩
    · rw [cutAt?_colon_iff.2 ⟨rfl, hcolon⟩]
      exact ⟨rfl, hname, htype⟩
  · rintro ⟨hcut, hname, htype⟩
    cases h : Text.cutAt? ':' text with
    | none =>
      rw [h] at hcut
      cases hcut
      exact .bare (Text.cutAt?_eq_none_iff.1 h)
    | some parts =>
      rw [h] at hcut
      cases hcut
      obtain ⟨rfl, hcolon⟩ := cutAt?_colon_iff.1 h
      exact .colon hcolon hname htype

theorem splitTyped_eq_ok_iff {defaultType text name type : String} (hdefault : defaultType ≠ "")
    (htext : text ≠ "") :
    splitTyped defaultType text = .ok (name, type) ↔ Typed defaultType text name type := by
  rw [typed_iff hdefault htext]
  unfold splitTyped
  generalize (Text.cutAt? ':' text).getD (text, defaultType) = parts
  obtain ⟨before, after⟩ := parts
  by_cases hempty : (decide (before = "") || decide (after = "")) = true
  · constructor
    · intro h
      simp [hempty] at h
    · rintro ⟨⟨⟩, hname, htype⟩
      simp [hname, htype] at hempty
  · have hparts : before ≠ "" ∧ after ≠ "" := by simpa using hempty
    constructor
    · intro h
      simp only [hempty] at h
      cases h
      exact ⟨rfl, hparts⟩
    · rintro ⟨⟨⟩, -, -⟩
      simp [hempty]

theorem hostArgOfToken_eq_ok_iff {defaultType : String} {token : Token} {host : HostArg}
    (hdefault : defaultType ≠ "") (htoken : token.Formed) :
    hostArgOfToken defaultType token = .ok host ↔ HostWord defaultType token host := by
  unfold hostArgOfToken
  by_cases hword : token.kind.isName = true
  · rw [if_pos hword, map_eq_ok_iff]
    constructor
    · rintro ⟨⟨text, type⟩, htyped, rfl⟩
      rw [splitTyped_eq_ok_iff hdefault htoken.text_ne_empty] at htyped
      exact .word hword htyped (splitMarker_eq_iff.1 rfl)
    · rintro ⟨-, htyped, hmarked⟩
      refine ⟨_, (splitTyped_eq_ok_iff hdefault htoken.text_ne_empty).2 htyped, ?_⟩
      simp only [hostArg, splitMarker_eq_iff.2 hmarked]
  · rw [if_neg hword]
    constructor
    · intro h
      split at h <;> cases h
    · rintro ⟨h, -, -⟩
      exact absurd h hword

/-- The code of a literal is what stands between its quotes. -/
theorem code_of_quoted {token : Token} {code : String} (h : token.text = "\"" ++ code ++ "\"") :
    token.code = code := by
  rw [← String.toList_inj]
  simp [Token.code, h]

theorem foreignWord_literal_iff {token : Token} {arg : ForeignArg} (htoken : token.Formed)
    (hkind : token.kind = .literal) : ForeignWord token arg ↔ arg = .literal token.code := by
  constructor
  · rintro (⟨-, htext⟩ | ⟨hname, -⟩ | ⟨hname, -, -, -, -⟩)
    · rw [code_of_quoted htext]
    · simp [hkind, TokenKind.isName] at hname
    · simp [hkind, TokenKind.isName] at hname
  · rintro rfl
    obtain ⟨code, htext⟩ := htoken.quoted hkind
    rw [code_of_quoted htext]
    exact .literal hkind htext

/-- A word that is not cut is a reference without a cast; one that is cut has both its parts. -/
theorem foreignWord_name_iff {token : Token} {arg : ForeignArg}
    (hname : token.kind.isName = true) :
    ForeignWord token arg ↔
      match Text.cutAt? ':' token.text with
      | none => arg = .reference token.text none
      | some (name, type) => name ≠ "" ∧ type ≠ "" ∧ arg = .reference name (some type) := by
  constructor
  · rintro (⟨hkind, -⟩ | ⟨-, hcolon⟩ | ⟨-, htext, hcolon, hne⟩)
    · simp [hkind, TokenKind.isName] at hname
    · rw [Text.cutAt?_eq_none_iff.2 hcolon]
    · rw [cutAt?_colon_iff.2 ⟨htext, hcolon⟩]
      exact ⟨hne, by assumption, rfl⟩
  · cases hcut : Text.cutAt? ':' token.text with
    | none =>
      rintro rfl
      exact .bare hname (Text.cutAt?_eq_none_iff.1 hcut)
    | some parts =>
      obtain ⟨htext, hcolon⟩ := cutAt?_colon_iff.1 hcut
      rintro ⟨hne, htype, rfl⟩
      exact .cast hname htext hcolon hne htype

theorem foreignArgOfToken_eq_ok_iff {token : Token} {arg : ForeignArg} (htoken : token.Formed) :
    foreignArgOfToken token = .ok arg ↔ ForeignWord token arg := by
  cases hkind : token.kind with
  | literal =>
    rw [foreignWord_literal_iff htoken hkind]
    simp [foreignArgOfToken, hkind, eq_comm]
  | separator =>
    constructor
    · intro h
      simp [foreignArgOfToken, hkind] at h
    · rintro (⟨h, -⟩ | ⟨h, -⟩ | ⟨h, -, -, -, -⟩) <;> simp [hkind, TokenKind.isName] at h
  | keyword | word =>
    rw [foreignWord_name_iff (by rw [hkind]; rfl)]
    cases hcut : Text.cutAt? ':' token.text with
    | none => simp [foreignArgOfToken, hkind, hcut, htoken.text_ne_empty, eq_comm]
    | some parts =>
      obtain ⟨name, type⟩ := parts
      by_cases hname : name = "" <;> by_cases htype : type = "" <;>
        simp [foreignArgOfToken, hkind, hcut, hname, htype, eq_comm]

theorem implied_iff {defaultType : String} {args : List ForeignArg} {hosts : List HostArg} :
    Implied defaultType args hosts ↔ args.filterMap (impliedHostArg defaultType) = hosts := by
  induction args generalizing hosts with
  | nil =>
    constructor
    · rintro ⟨⟩
      rfl
    · rintro rfl
      exact .nil
  | cons arg args ih =>
    cases arg with
    | literal code =>
      rw [List.filterMap_cons_none rfl, ← ih]
      constructor
      · rintro (_ | himplied)
        exact himplied
      · exact .literal
    | reference text cast =>
      simp only [List.filterMap_cons, impliedHostArg]
      constructor
      · rintro (_ | _ | ⟨hmarked, himplied⟩)
        simp only [hostArg, splitMarker_eq_iff.2 hmarked, ih.1 himplied]
      · rintro rfl
        exact .reference (splitMarker_eq_iff.1 rfl) (ih.2 rfl)

/-! ## Reading directives -/

theorem isSeparator_iff {token : Token} : isSeparator token = true ↔ token.kind = .separator := by
  simp [isSeparator]

/-- What has a name's kind is no separator. -/
theorem not_isSeparator_of_isName {token : Token} (h : token.kind.isName = true) :
    isSeparator token = false := by
  cases hkind : token.kind <;> simp_all [isSeparator, TokenKind.isName]

theorem not_isSeparator_of_hostWord {defaultType : String} {token : Token} {host : HostArg}
    (h : HostWord defaultType token host) : isSeparator token = false := by
  obtain ⟨hname, -, -⟩ := h
  exact not_isSeparator_of_isName hname

theorem not_isSeparator_of_foreignWord {token : Token} {arg : ForeignArg}
    (h : ForeignWord token arg) : isSeparator token = false := by
  cases h with
  | literal hkind _ => simp [isSeparator, hkind]
  | bare hname _ => exact not_isSeparator_of_isName hname
  | cast hname _ _ _ _ => exact not_isSeparator_of_isName hname

theorem callOfTokens_eq_ok_iff {d : Directive} {tokens : List Token}
    (htokens : ∀ token ∈ tokens, token.Formed) :
    callOfTokens tokens = .ok (d.foreignFunction, d.foreignArgs) ↔ CallWords d tokens := by
  cases tokens with
  | nil =>
    constructor
    · intro h
      cases h
    · rintro ⟨⟩
  | cons function args =>
    have hargs : ∀ token ∈ args, token.Formed :=
      fun token h => htokens token (List.mem_cons_of_mem _ h)
    have hread : args.mapM foreignArgOfToken = .ok d.foreignArgs ↔
        List.Forall₂ ForeignWord args d.foreignArgs := by
      rw [mapM_eq_ok_iff]
      exact forall₂_congr_of_mem hargs fun token arg htoken => foreignArgOfToken_eq_ok_iff htoken
    rw [callOfTokens]
    by_cases hname : function.kind.isName = true
    · rw [if_pos hname, map_eq_ok_iff]
      constructor
      · rintro ⟨read, hargs, hd⟩
        obtain ⟨hfunction, rfl⟩ := Prod.mk.inj hd
        exact .call hname hfunction (hread.1 hargs)
      · rintro ⟨-, hfunction, hargs⟩
        exact ⟨_, hread.2 hargs, by rw [hfunction]⟩
    · rw [if_neg hname]
      constructor
      · intro h
        cases h
      · rintro ⟨h, -, -⟩
        exact absurd h hname

/-- No word of a call is a separator. -/
theorem CallWords.not_isSeparator {d : Directive} {tokens : List Token} (h : CallWords d tokens) :
    ∀ token ∈ tokens, isSeparator token = false := by
  obtain ⟨hname, -, hargs⟩ := h
  rintro token (_ | ⟨_, htoken⟩)
  · exact not_isSeparator_of_isName hname
  · exact forall_mem_of_forall₂ hargs (fun _ _ harg => not_isSeparator_of_foreignWord harg) _ htoken

/-- The first separator cuts the tokens in two. -/
theorem split_at_separator {tokens call : List Token} {separator : Token}
    (h : tokens.dropWhile (!isSeparator ·) = separator :: call) :
    tokens = tokens.takeWhile (!isSeparator ·) ++ separator :: call ∧
      separator.kind = .separator := by
  constructor
  · rw [← h, List.takeWhile_append_dropWhile]
  · have hhead := List.head?_dropWhile_not (!isSeparator ·) tokens
    rw [h] at hhead
    rw [← isSeparator_iff]
    simpa using hhead

theorem hostArgs_eq_ok_iff {defaultType : String} {tokens : List Token} {hosts : List HostArg}
    (hdefault : defaultType ≠ "") (htokens : ∀ token ∈ tokens, token.Formed) :
    tokens.mapM (hostArgOfToken defaultType) = .ok hosts ↔
      List.Forall₂ (HostWord defaultType) tokens hosts := by
  rw [mapM_eq_ok_iff]
  exact forall₂_congr_of_mem htokens fun token host htoken =>
    hostArgOfToken_eq_ok_iff hdefault htoken

theorem assemble_eq_ok_iff {defaultType name result : String} {tokens : List Token} {d : Directive}
    (hdefault : defaultType ≠ "") (htokens : ∀ token ∈ tokens, token.Formed) :
    assemble defaultType name result tokens = .ok d ↔
      d.name = name ∧ d.result = result ∧ ArgumentWords defaultType d tokens ∧
        d.variadic = d.hostArgs.getLast?.any (·.variadic) := by
  constructor
  · intro h
    unfold assemble at h
    split at h
    case h_1 separator call hdrop =>
      simp only [bind_eq_ok_iff] at h
      obtain ⟨hosts, hhosts, ⟨function, args⟩, hcall, h⟩ := h
      cases h
      refine ⟨rfl, rfl, ?_, rfl⟩
      obtain ⟨hsplit, hseparator⟩ := split_at_separator hdrop
      rw [hsplit] at htokens ⊢
      refine .separate ?_ hseparator ?_ rfl
      · exact (hostArgs_eq_ok_iff hdefault fun t ht =>
          htokens t (List.mem_append_left _ ht)).1 hhosts
      · exact (callOfTokens_eq_ok_iff fun t ht =>
          htokens t (List.mem_append_right _ (List.mem_cons_of_mem _ ht))).1 hcall
    case h_2 hdrop =>
      simp only [bind_eq_ok_iff] at h
      obtain ⟨⟨function, args⟩, hcall, h⟩ := h
      cases h
      exact ⟨rfl, rfl, .together ((callOfTokens_eq_ok_iff htokens).1 hcall) (implied_iff.2 rfl) rfl,
        rfl⟩
  · rintro ⟨rfl, rfl, hwords, hvariadic⟩
    unfold assemble
    cases hwords with
    | @separate hosts call separator hhosts hseparator hcall hpass =>
      have hbare : ∀ token ∈ hosts, (!isSeparator token) = true :=
        forall_mem_of_forall₂ hhosts fun token host hword => by
          rw [not_isSeparator_of_hostWord hword]
          rfl
      have hstop : (!isSeparator separator) = false := by
        rw [isSeparator_iff.2 hseparator]
        rfl
      have hread := (hostArgs_eq_ok_iff hdefault fun t ht =>
        htokens t (List.mem_append_left _ ht)).2 hhosts
      have hcall' := (callOfTokens_eq_ok_iff fun t ht =>
        htokens t (List.mem_append_right _ (List.mem_cons_of_mem _ ht))).2 hcall
      rw [List.dropWhile_append_of_pos hbare, List.takeWhile_append_of_pos hbare,
        List.dropWhile_cons_of_neg (by simp [hstop]), List.takeWhile_cons_of_neg (by simp [hstop]),
        List.append_nil, hread]
      simp only [hcall', bind, Except.bind, pure, Except.pure, ← hpass, ← hvariadic]
    | together hcall himplied hpass =>
      have hnone : tokens.dropWhile (!isSeparator ·) = [] := by
        rw [List.dropWhile_eq_nil_iff]
        intro token htoken
        rw [hcall.not_isSeparator token htoken]
        rfl
      rw [hnone, (callOfTokens_eq_ok_iff htokens).2 hcall]
      simp only [bind, Except.bind, pure, Except.pure, implied_iff.1 himplied, ← hpass, ← hvariadic]

/-- A line of tokens is read word by word: the head, the arguments, and then the rules. -/
theorem ofTokens_cons {config : Config} {keyword head : Token} {rest : List Token}
    (hkeyword : keyword.kind = .keyword) (hhead : head.kind.isName = true) :
    ofTokens config (keyword :: head :: rest) =
      splitTyped config.defaultType head.text >>= fun typed =>
        assemble config.defaultType typed.1 typed.2 rest >>= fun d =>
          validate d >>= fun _ => pure d := by
  obtain ⟨kind, text, start, stop⟩ := keyword
  obtain rfl : kind = .keyword := hkeyword
  simp only [ofTokens, hhead]
  rfl

theorem ofTokens_cons_of_not_isName {config : Config} {keyword head : Token} {rest : List Token}
    (hkeyword : keyword.kind = .keyword) (hhead : ¬ head.kind.isName = true) :
    ofTokens config (keyword :: head :: rest) = .error .missingName := by
  obtain ⟨kind, text, start, stop⟩ := keyword
  obtain rfl : kind = .keyword := hkeyword
  simp only [ofTokens, hhead]
  rfl

theorem ofTokens_cons_eq_ok_iff {config : Config} {keyword head : Token} {rest : List Token}
    {d : Directive} (hkeyword : keyword.kind = .keyword) :
    ofTokens config (keyword :: head :: rest) = .ok d ↔
      head.kind.isName = true ∧ ∃ name result,
        splitTyped config.defaultType head.text = .ok (name, result) ∧
        assemble config.defaultType name result rest = .ok d ∧ validate d = .ok () := by
  by_cases hname : head.kind.isName = true
  · rw [ofTokens_cons hkeyword hname]
    simp only [bind_eq_ok_iff, Prod.exists, hname, true_and]
    constructor
    · rintro ⟨name, result, hsplit, read, hread, ⟨⟩, hvalid, ⟨⟩⟩
      exact ⟨name, result, hsplit, hread, hvalid⟩
    · rintro ⟨name, result, hsplit, hread, hvalid⟩
      exact ⟨name, result, hsplit, d, hread, (), hvalid, rfl⟩
  · rw [ofTokens_cons_of_not_isName hkeyword hname]
    constructor
    · rintro ⟨⟩
    · exact fun h => absurd h.1 hname

/-- What is read begins with the keyword and a head. -/
theorem exists_of_ofTokens_eq_ok {config : Config} {tokens : List Token} {d : Directive}
    (h : ofTokens config tokens = .ok d) :
    ∃ keyword head rest, tokens = keyword :: head :: rest ∧ keyword.kind = .keyword := by
  unfold ofTokens at h
  split at h
  case h_1 text start stop head rest => exact ⟨_, head, rest, rfl, rfl⟩
  case h_2 | h_3 => cases h

theorem variadic_of_assemble_eq_ok {defaultType name result : String} {tokens : List Token}
    {d : Directive} (h : assemble defaultType name result tokens = .ok d) :
    d.variadic = endsWithSequence d := by
  unfold assemble at h
  split at h
  case h_1 =>
    simp only [bind_eq_ok_iff] at h
    obtain ⟨hosts, -, ⟨function, args⟩, -, h⟩ := h
    cases h
    rfl
  case h_2 =>
    simp only [bind_eq_ok_iff] at h
    obtain ⟨⟨function, args⟩, -, h⟩ := h
    cases h
    rfl

/-- The directive of a line keeps the rules, and says itself whether it ends with a sequence. -/
theorem valid_of_ofLine_eq_ok {config : Config} {line : String} {d : Directive}
    (h : ofLine config line = .ok d) : Valid d ∧ d.variadic = endsWithSequence d := by
  obtain ⟨tokens, -, h⟩ := bind_eq_ok_iff.1 h
  obtain ⟨keyword, head, rest, rfl, hkeyword⟩ := exists_of_ofTokens_eq_ok h
  obtain ⟨-, name, result, -, hassemble, hvalid⟩ := (ofTokens_cons_eq_ok_iff hkeyword).1 h
  exact ⟨validate_eq_ok_iff.1 hvalid, variadic_of_assemble_eq_ok hassemble⟩

/-- **The reader of directives accepts exactly what the grammar and the rules allow**, and it reads
the directive that is written. -/
theorem ofTokens_eq_ok_iff_writes {config : Config} {line : String} {tokens : List Token}
    {d : Directive} (hdefault : config.defaultType ≠ "") (htokens : tokenize line = .ok tokens) :
    ofTokens config tokens = .ok d ↔ Writes config.defaultType tokens d ∧ Valid d := by
  have hformed := formed_of_mem_tokenize htokens
  constructor
  · intro h
    obtain ⟨keyword, head, rest, rfl, hkeyword⟩ := exists_of_ofTokens_eq_ok h
    rw [ofTokens_cons_eq_ok_iff hkeyword] at h
    obtain ⟨hhead, name, result, hsplit, hread, hvalid⟩ := h
    rw [splitTyped_eq_ok_iff hdefault (hformed head (by simp)).text_ne_empty] at hsplit
    rw [assemble_eq_ok_iff hdefault fun t ht => hformed t (by simp [ht])] at hread
    obtain ⟨rfl, rfl, hwords, hvariadic⟩ := hread
    exact ⟨.line hkeyword hhead hsplit hwords hvariadic, validate_eq_ok_iff.1 hvalid⟩
  · rintro ⟨@⟨keyword, head, rest, _, hkeyword, hhead, htyped, hwords, hvariadic⟩, hvalid⟩
    rw [ofTokens_cons_eq_ok_iff hkeyword]
    refine ⟨hhead, d.name, d.result, ?_, ?_, validate_eq_ok_iff.2 hvalid⟩
    · exact (splitTyped_eq_ok_iff hdefault (hformed head (by simp)).text_ne_empty).2 htyped
    · exact (assemble_eq_ok_iff hdefault fun t ht => hformed t (by simp [ht])).2
        ⟨rfl, rfl, hwords, hvariadic⟩

/-- The line of a sum of a first value and any number of others. -/
theorem writes_of_sum_line :
    ∃ tokens d, tokenize "//wrap:expr add x rest... : Z3_mk_add x rest..." = .ok tokens ∧
      ({} : Config).defaultType ≠ "" ∧ Writes "Expr" tokens d ∧ Valid d ∧
      d.hostArgs = [⟨"x", "Expr", false⟩, ⟨"rest", "Expr", true⟩] := by
  have htokens : tokenize "//wrap:expr add x rest... : Z3_mk_add x rest..." = .ok
      [⟨.keyword, "//wrap:expr", 0, 11⟩, ⟨.word, "add", 12, 15⟩, ⟨.word, "x", 16, 17⟩,
        ⟨.word, "rest...", 18, 25⟩, ⟨.separator, ":", 26, 27⟩, ⟨.word, "Z3_mk_add", 28, 37⟩,
        ⟨.word, "x", 38, 39⟩, ⟨.word, "rest...", 40, 47⟩] := by decide +kernel
  have hdefault : ({} : Config).defaultType ≠ "" := by decide
  obtain ⟨hwrites, hvalid⟩ := (ofTokens_eq_ok_iff_writes (d := ⟨"add", "Expr",
    [⟨"x", "Expr", false⟩, ⟨"rest", "Expr", true⟩], "Z3_mk_add",
    [.reference "x" none, .reference "rest..." none], true, false⟩) hdefault htokens).1
      (by decide +kernel)
  exact ⟨_, _, htokens, hdefault, hwrites, hvalid, rfl⟩

end ForeignWrap.Directive
