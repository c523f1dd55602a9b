import ForeignWrap.Proofs.Directive.Pasted
import ForeignWrap.Proofs.Method.Equality
import ForeignWrap.Proofs.Method.Retention
import ForeignWrap.Proofs.Method.Variables
import Mathlib.Data.List.Perm.Subperm

/-!
# What the method for equality calls

The bool type is pasted into the directive line of the method for equality, right after the name and
before the call. Only its first word is read as a result. The words after it are read as part of
what the line asks for, so they can give the method other arguments and another call.

## Main definitions

* `ForeignWrap.Method.Equates`: a method that calls `Z3_mk_eq` on its receiver and its argument, and
  nothing else.
* `ForeignWrap.Method.KeepsCall`: words that may come before the call of the line.
* `ForeignWrap.Method.equates_of_equality_iff`: for which bool types the method is such a method.
-/

namespace ForeignWrap.Method

open Code (Token)
open Directive (isWordChar isGap HostWord ForeignWord ArgumentWords CallWords Valid ForeignArg)
open Call (identifier)

variable {config : Config} {d : Directive} {docs : List Doc} {m : Method}

/-! ## Foreign calls -/

/-- What a step calls. -/
def Step.foreignCall? : Step → Option (String × CallArgs)
  | .call function args => some (function, args)
  | _ => none

/-- The foreign calls of a method, with their arguments after the context. -/
def foreignCalls (m : Method) : List (String × CallArgs) :=
  match m.body with
  | .wrap ss _ => ss.filterMap (·.foreignCall?)
  | .distinct _ _ => []

/-- A value is read as the handle that it has, perhaps through the expression inside. -/
inductive IsHandle : Call.Access → Prop where
  | unwrap : IsHandle .unwrap
  | handle : IsHandle .handle

theorem IsHandle.of_isExpr (type : String) :
    IsHandle (if config.isExpr type then .unwrap else .handle) := by
  split_ifs
  · exact .unwrap
  · exact .handle

/-- A method that has one argument `r` and calls `Z3_mk_eq` once, on the handle of its receiver and
on that of the argument, in this order. -/
structure Equates (m : Method) : Prop where
  receiver : m.body.receiverNames = ["l"]
  params : m.params.map (·.name) = ["r"]
  calls : ∃ left right, IsHandle left ∧ IsHandle right ∧
    m.foreignCalls = [("Z3_mk_eq", .each [.read "l" left false, .read "r" right false])]

/-- Words that may come before the call of the line: none, or a receiver `l`, an argument `r` and a
separator. -/
inductive KeepsCall (defaultType : String) : List Directive.Token → Prop where
  | nothing : KeepsCall defaultType []
  | hosts {l r separator : Directive.Token} {left right : String} :
      HostWord defaultType l ⟨"l", left, false⟩ → HostWord defaultType r ⟨"r", right, false⟩ →
      separator.kind = .separator → KeepsCall defaultType [l, r, separator]

/-! ## The words of the line -/

/-- The words of the call of the line. -/
def equalCall : List Directive.Token :=
  ["Z3_mk_eq", "l", "r"].map Directive.Token.ofWord

theorem spelled_of_mem_equalCall : ∀ token ∈ equalCall, token.Spelled := by
  rw [equalCall, List.forall_mem_map]
  intro text htext
  have hword : text ≠ "" ∧ text.toList.all isWordChar = true := by
    revert text
    decide
  exact Directive.Token.spelled_ofWord hword.1 hword.2

theorem says_equalCall : Directive.Says "Z3_mk_eq l r".toList equalCall := by
  have hline : "Z3_mk_eq l r" = Directive.spaced (equalCall.map (·.text)) := by decide +kernel
  rw [hline]
  exact Directive.says_spaced spelled_of_mem_equalCall

/-- A name with nothing after its colon says no name and type. -/
theorem splitTyped_equalHead_ne_ok (defaultType : String) (typed : String × String) :
    Directive.splitTyped defaultType "eq:" ≠ .ok typed := by
  have hcut : Text.cutAt? ':' "eq:" = some ("eq", "") :=
    Directive.cutAt?_colon_iff.2 ⟨rfl, by decide⟩
  simp [Directive.splitTyped, hcut]

/-- Where the line has a directive, its words are those of the bool type, the first one after the
name of the method, and then those of the call. -/
theorem exists_ofTokens_of_ofLine_equalLine
    (h : Directive.ofLine config (equalLine config) = .ok d) :
    ∃ first rest, Directive.tokenize config.boolType = .ok (first :: rest) ∧
      first.text.toList = config.boolType.toList.takeWhile isWordChar ∧
      Directive.ofTokens config (Directive.Token.ofWord directiveKeyword ::
        Directive.Token.ofWord ("eq:" ++ first.text) :: (rest ++ equalCall)) = .ok d := by
  obtain ⟨tokens, htokens, hd⟩ := bind_eq_ok_iff.1 h
  have hline : (equalLine config).toList = directiveKeyword.toList ++
      ' ' :: ("eq:".toList ++ config.boolType.toList ++ ' ' :: "Z3_mk_eq l r".toList) := by
    simp [equalLine]
  have hspells := Directive.tokenize_eq_ok_iff.1 htokens
  rw [hline] at hspells
  obtain ⟨keyword, others, _, rfl, hkeyword, hkeywordText, hothers⟩ :=
    hspells.exists_cons_of_word (by decide) (List.all_eq_true.1 (by decide)) (by
      rintro c ⟨⟩
      rfl)
  obtain ⟨head, rest, after, rfl, hkind, htext, hrest, hafter⟩ :=
    Directive.exists_says_of_pasted (by decide) (List.all_eq_true.1 (by decide)) rfl (by decide)
      (hothers.of_gap rfl)
  rw [String.ofList_toList] at hkeywordText
  rw [hkeywordText] at hkeyword
  -- The bool type begins with a word, since otherwise no result would stand after the name.
  have hne : config.boolType.toList.takeWhile isWordChar ≠ [] := by
    intro hnil
    rw [hnil, List.append_nil] at htext
    obtain ⟨-, name, result, hsplit, -, -⟩ := (Directive.ofTokens_cons_eq_ok_iff hkeyword).1 hd
    rw [htext, String.ofList_toList] at hsplit
    exact splitTyped_equalHead_ne_ok _ _ hsplit
  have hword : (Directive.Token.ofWord
      (String.ofList (config.boolType.toList.takeWhile isWordChar))).Spelled := by
    refine Directive.Token.spelled_ofWord (fun hempty => hne ?_) ?_
    · simpa using congrArg String.toList hempty
    · rw [String.toList_ofList, List.all_eq_true]
      exact fun c hc => List.mem_takeWhile_imp hc
  have hsaid := Directive.Says.token hword
    (fun _ c hc => Directive.head?_dropWhile_isWordChar hc) hrest
  rw [show (Directive.Token.ofWord (String.ofList
    (config.boolType.toList.takeWhile isWordChar))).text.toList = _ from String.toList_ofList ..,
    List.takeWhile_append_dropWhile] at hsaid
  obtain ⟨placed, hspells, hplaced⟩ := hsaid 0
  obtain ⟨first, rest', rfl, hfirst, hrest'⟩ := List.map_eq_cons_iff.1 hplaced
  have hfirstText : first.text = String.ofList (config.boolType.toList.takeWhile isWordChar) :=
    congrArg Directive.Token.text hfirst
  have hheadText : head.text = "eq:" ++ first.text := by
    rw [htext, hfirstText, String.ofList_append, String.ofList_toList]
  refine ⟨first, rest', Directive.tokenize_eq_ok_iff.2 hspells, ?_, ?_⟩
  · rw [hfirstText, String.toList_ofList]
  · have hsame : (keyword :: (head :: rest ++ after)).map Directive.Token.unplaced =
        (Directive.Token.ofWord directiveKeyword :: Directive.Token.ofWord ("eq:" ++ first.text) ::
          (rest' ++ equalCall)).map Directive.Token.unplaced := by
      simp only [List.cons_append, List.map_cons, List.map_append, hrest',
        hafter.unplaced_eq says_equalCall, Directive.Token.unplaced, Directive.Token.ofWord,
        hkeyword, hkeywordText, hkind, hheadText]
    rw [← Directive.ofTokens_unplaced, ← hsame, Directive.ofTokens_unplaced]
    exact hd

/-- The name and the result of the directive come from the first word of the bool type. The other
words are read together with the call. -/
theorem exists_argumentWords_of_ofLine_equalLine (hdefault : config.defaultType ≠ "")
    (h : Directive.ofLine config (equalLine config) = .ok d) :
    ∃ first rest, Directive.tokenize config.boolType = .ok (first :: rest) ∧
      first.text.toList = config.boolType.toList.takeWhile isWordChar ∧ d.name = "eq" ∧
      d.result = first.text ∧ ArgumentWords config.defaultType d (rest ++ equalCall) := by
  obtain ⟨first, rest, htokens, htext, hd⟩ := exists_ofTokens_of_ofLine_equalLine h
  obtain ⟨-, name, result, hsplit, hread, -⟩ := (Directive.ofTokens_cons_eq_ok_iff rfl).1 hd
  have hformed : ∀ token ∈ rest ++ equalCall, token.Formed := by
    refine List.forall_mem_append.2 ⟨fun token htoken => ?_, fun token htoken => ?_⟩
    · exact Directive.formed_of_mem_tokenize htokens token (by simp [htoken])
    · exact (spelled_of_mem_equalCall token htoken).formed
  obtain ⟨rfl, rfl, hwords, -⟩ := (Directive.assemble_eq_ok_iff hdefault hformed).1 hread
  have htyped : Directive.Typed config.defaultType ("eq:" ++ first.text) d.name d.result :=
    (Directive.splitTyped_eq_ok_iff hdefault (fun h => by simpa using congrArg String.toList h)).1
      hsplit
  have hcut : Text.cutAt? ':' ("eq:" ++ first.text) = some ("eq", first.text) :=
    Directive.cutAt?_colon_iff.2 ⟨rfl, by decide⟩
  obtain ⟨hparts, -, -⟩ := (Directive.typed_iff hdefault
    (fun h => by simpa using congrArg String.toList h)).1 htyped
  rw [hcut] at hparts
  obtain ⟨hname, hresult⟩ := Prod.mk.inj hparts
  exact ⟨first, rest, htokens, htext, hname.symm, hresult.symm, hwords⟩

/-! ## Words before the call -/

/-- A word without a colon is a reference without a cast, where it stands in a call. -/
theorem eq_reference_of_foreignWord {text : String} {arg : ForeignArg} (hcolon : ':' ∉ text.toList)
    (hname : (Directive.wordKind text).isName = true)
    (h : ForeignWord (Directive.Token.ofWord text) arg) : arg = .reference text none := by
  have hword := (Directive.foreignWord_name_iff hname).1 h
  rwa [Directive.Token.ofWord, Text.cutAt?_eq_none_iff.2 hcolon] at hword

/-- Where the words of the call are all arguments, they are references. -/
theorem reference_mem_of_equalCall {front : List Directive.Token} {args : List ForeignArg}
    (h : List.Forall₂ ForeignWord (front ++ equalCall) args) :
    ∀ text ∈ ["Z3_mk_eq", "l", "r"], ForeignArg.reference text none ∈ args := by
  have hwords : ∀ text ∈ ["Z3_mk_eq", "l", "r"],
      ':' ∉ text.toList ∧ (Directive.wordKind text).isName = true := by decide
  intro text htext
  have hmem : Directive.Token.ofWord text ∈ front ++ equalCall :=
    List.mem_append_right _ (List.mem_map_of_mem htext)
  obtain ⟨i, hi⟩ := List.getElem?_of_mem hmem
  obtain ⟨arg, harg, hforeign⟩ := exists_getElem?_of_forall₂ h hi
  rw [← eq_reference_of_foreignWord (hwords text htext).1 (hwords text htext).2 hforeign]
  exact List.mem_of_getElem? harg

/-- Where the words of the call are all arguments, the method has a host argument for each. -/
theorem three_le_length_hostArgs (hvalid : Valid d)
    (hargs : ∀ text ∈ ["Z3_mk_eq", "l", "r"], ForeignArg.reference text none ∈ d.foreignArgs) :
    3 ≤ d.hostArgs.length := by
  have hbare : ∀ text ∈ ["Z3_mk_eq", "l", "r"], Directive.splitMarker text = (text, false) := by
    decide
  have hsubset : ["Z3_mk_eq", "l", "r"] ⊆ d.hostArgs.map (·.name) := by
    intro text htext
    obtain ⟨host, hhost, hname, -⟩ := hvalid.refers_host _ (hargs text htext) text false
      (Directive.refers_reference_iff.2 (hbare text htext))
    exact hname ▸ List.mem_map_of_mem hhost
  have hnodup : ["Z3_mk_eq", "l", "r"].Nodup := by decide
  simpa using (List.subperm_of_subset hnodup hsubset).length_le

theorem foreignArgs_of_equalCall (h : CallWords d equalCall) :
    d.foreignFunction = "Z3_mk_eq" ∧
      d.foreignArgs = [.reference "l" none, .reference "r" none] := by
  obtain ⟨-, hfunction, hargs⟩ := h
  refine ⟨hfunction.symm, ?_⟩
  generalize d.foreignArgs = args at hargs
  obtain _ | ⟨hl, _ | ⟨hr, hnil⟩⟩ := hargs
  obtain rfl := List.forall₂_nil_left_iff.1 hnil
  rw [eq_reference_of_foreignWord (by decide) rfl hl,
    eq_reference_of_foreignWord (by decide) rfl hr]

/-- A call with words before those of the line has an argument for each of these, so the method has
more than two. -/
theorem eq_nil_of_callWords {front : List Directive.Token} (hvalid : Valid d)
    (hlength : d.hostArgs.length = 2) (h : CallWords d (front ++ equalCall)) : front = [] := by
  cases front with
  | nil => rfl
  | cons function front =>
    obtain ⟨-, -, hargs⟩ := h
    have hthree := three_le_length_hostArgs hvalid (reference_mem_of_equalCall hargs)
    omega

theorem not_isSeparator_of_mem_equalCall :
    ∀ token ∈ equalCall, token.kind ≠ .separator := by
  decide

/-- A method of two arguments is asked for in one of two ways: the call stands alone, or its two
arguments and a separator stand before it. -/
theorem eq_nil_or_hostWords_of_argumentWords {defaultType : String} {rest : List Directive.Token}
    (hvalid : Valid d) (hlength : d.hostArgs.length = 2)
    (h : ArgumentWords defaultType d (rest ++ equalCall)) :
    CallWords d equalCall ∧ (rest = [] ∨ ∃ l r separator, rest = [l, r, separator] ∧
      separator.kind = .separator ∧ List.Forall₂ (HostWord defaultType) [l, r] d.hostArgs) := by
  generalize htokens : rest ++ equalCall = tokens at h
  cases h with
  | together hcall _ _ =>
    rw [← htokens] at hcall
    obtain rfl := eq_nil_of_callWords hvalid hlength hcall
    exact ⟨hcall, .inl rfl⟩
  | @separate hosts call separator hhosts hseparator hcall _ =>
    obtain ⟨extra, -, hextra⟩ | ⟨extra, rfl, hextra⟩ := List.append_eq_append_iff.1 htokens
    · have hmem : separator ∈ equalCall := by simp [hextra]
      exact absurd hseparator (not_isSeparator_of_mem_equalCall separator hmem)
    · cases extra with
      | nil =>
        have hmem : separator ∈ [] ++ equalCall := hextra ▸ List.mem_cons_self
        exact absurd hseparator (not_isSeparator_of_mem_equalCall separator hmem)
      | cons first extra =>
        obtain ⟨rfl, rfl⟩ := List.cons.inj hextra
        obtain rfl := eq_nil_of_callWords hvalid hlength hcall
        obtain ⟨l, r, rfl⟩ := List.length_eq_two.1 (hhosts.length_eq.trans hlength)
        exact ⟨hcall, .inr ⟨l, r, separator, rfl, hseparator, hhosts⟩⟩

/-! ## The method of the line -/

/-- A directive that asks for the call of `Z3_mk_eq` on its receiver `l` and its argument `r`. -/
structure AsksForEqual (d : Directive) : Prop where
  foreignFunction : d.foreignFunction = "Z3_mk_eq"
  foreignArgs : d.foreignArgs = [.reference "l" none, .reference "r" none]
  hostArgs : ∃ left right, d.hostArgs = [⟨"l", left, false⟩, ⟨"r", right, false⟩]

theorem identifier_names : identifier "eq" = .ok "eq" ∧ identifier "Z3_mk_eq" = .ok "Z3_mk_eq" ∧
    identifier "l" = .ok "l" ∧ identifier "r" = .ok "r" := by
  decide +kernel

/-- The call of such a directive reads the handles of both. -/
theorem AsksForEqual.bind_eq (h : AsksForEqual d) {args : List Call.Arg}
    (hargs : Call.bind config d = .ok args) :
    ∃ left right, IsHandle left ∧ IsHandle right ∧
      args = [.read "l" left false, .read "r" right false] := by
  obtain ⟨left, right, hhosts⟩ := h.hostArgs
  have hhost : ∀ name, d.hostArg? name =
      ([⟨"l", left, false⟩, ⟨"r", right, false⟩] : List Directive.HostArg).find?
        (·.name = name) := by
    intro name
    rw [Directive.hostArg?, hhosts]
  have hl : Call.bindArg config d (.reference "l" none) =
      .ok (.read "l" (if config.isExpr left then .unwrap else .handle) false) :=
    bindArg_reference ⟨"l", left, false⟩ (by rw [hhost]; rfl) identifier_names.2.2.1
  have hr : Call.bindArg config d (.reference "r" none) =
      .ok (.read "r" (if config.isExpr right then .unwrap else .handle) false) :=
    bindArg_reference ⟨"r", right, false⟩ (by rw [hhost]; rfl) identifier_names.2.2.2
  rw [Call.bind, h.foreignArgs, List.mapM_cons, List.mapM_cons, hl, hr] at hargs
  cases hargs
  exact ⟨_, _, .of_isExpr left, .of_isExpr right, rfl⟩

theorem filterMap_foreignCall?_contextSteps (receiver : Directive.HostArg) (name : String) :
    (contextSteps config receiver name).filterMap (·.foreignCall?) = [] := by
  unfold contextSteps
  split_ifs <;> rfl

/-- The method for such a directive calls `Z3_mk_eq` on the handles of both. -/
theorem AsksForEqual.equates (h : AsksForEqual d) (hm : ofDirective config d docs = .ok m) :
    Equates m := by
  obtain ⟨w⟩ := nonempty_wrapped hm
  obtain ⟨left, right, hleft, hright, hargs⟩ := h.bind_eq w.args_eq
  obtain ⟨leftType, rightType, hhosts⟩ := h.hostArgs
  have hnames := w.forall₂_names
  rw [hhosts] at hnames
  obtain _ | ⟨hl, hnames⟩ := hnames
  have hl : "l" = w.receiverName := Except.ok.inj (identifier_names.2.2.1.symm.trans hl)
  have hfunction := w.function_eq
  rw [h.foreignFunction] at hfunction
  have hfunction : "Z3_mk_eq" = w.function :=
    Except.ok.inj (identifier_names.2.1.symm.trans hfunction)
  refine ⟨?_, ?_, left, right, hleft, hright, ?_⟩
  · simp only [w.body_eq, Body.receiverNames, filterMap_of_steps_eq_ok w.steps_eq, ← hl]
  · generalize m.params.map (·.name) = names at hnames
    obtain _ | ⟨hr, hnil⟩ := hnames
    obtain rfl := List.forall₂_nil_left_iff.1 hnil
    rw [Except.ok.inj (identifier_names.2.2.2.symm.trans hr)]
  · have hsteps := w.steps_eq
    rw [hargs, steps_eq_of_variadic?_eq_none rfl, ← hfunction] at hsteps
    simp only [foreignCalls, w.body_eq, ← Except.ok.inj hsteps, List.filterMap_append,
      filterMap_foreignCall?_contextSteps]
    simp [Step.foreignCall?]

/-- A method that compares is asked for by such a directive. -/
theorem asksForEqual_of_equates {defaultType : String} {rest : List Directive.Token}
    (hvalid : Valid d) (hwords : ArgumentWords defaultType d (rest ++ equalCall))
    (hm : ofDirective config d docs = .ok m) (h : Equates m) : AsksForEqual d := by
  have hnames := forall₂_boundNames hm
  rw [boundNames, h.receiver, h.params] at hnames
  obtain ⟨hfunction, hargs⟩ := foreignArgs_of_equalCall
    (eq_nil_or_hostWords_of_argumentWords hvalid hnames.length_eq hwords).1
  -- The call names both host arguments, and what they are read as gives the order.
  have hhost : ∀ text ∈ ["l", "r"], ∃ host ∈ d.hostArgs, host.name = text ∧
      host.variadic = false := by
    intro text htext
    have hbare : ∀ text ∈ ["l", "r"], Directive.splitMarker text = (text, false) := by decide
    refine hvalid.refers_host (.reference text none) ?_ text false
      (Directive.refers_reference_iff.2 (hbare text htext))
    rw [hargs]
    simpa using htext
  refine ⟨hfunction, hargs, ?_⟩
  generalize d.hostArgs = hosts at hnames hhost
  obtain _ | ⟨hfirst, _ | ⟨hsecond, _ | _⟩⟩ := hnames
  rename_i first second
  obtain ⟨hl, hr⟩ : (∃ host ∈ [first, second], host.name = "l" ∧ host.variadic = false) ∧
      ∃ host ∈ [first, second], host.name = "r" ∧ host.variadic = false :=
    ⟨hhost "l" (by simp), hhost "r" (by simp)⟩
  have hleft : first.name = "l" ∧ first.variadic = false := by
    obtain ⟨host, hmem, hname, hsingle⟩ := hl
    obtain rfl | rfl : host = first ∨ host = second := by simpa using hmem
    · exact ⟨hname, hsingle⟩
    · rw [hname, identifier_names.2.2.1] at hsecond
      exact absurd (Except.ok.inj hsecond) (by decide)
  have hright : second.name = "r" ∧ second.variadic = false := by
    obtain ⟨host, hmem, hname, hsingle⟩ := hr
    obtain rfl | rfl : host = first ∨ host = second := by simpa using hmem
    · rw [hname, identifier_names.2.2.2] at hfirst
      exact absurd (Except.ok.inj hfirst) (by decide)
    · exact ⟨hname, hsingle⟩
  obtain ⟨_, left, _⟩ := first
  obtain ⟨_, right, _⟩ := second
  obtain ⟨rfl, rfl⟩ := hleft
  obtain ⟨rfl, rfl⟩ := hright
  exact ⟨left, right, rfl⟩

/-- The call of the line alone implies the host arguments. -/
theorem implied_of_argumentWords {defaultType : String}
    (h : ArgumentWords defaultType d equalCall) :
    CallWords d equalCall ∧ Directive.Implied defaultType d.foreignArgs d.hostArgs := by
  generalize htokens : equalCall = tokens at h
  cases h with
  | together hcall himplied _ => exact ⟨hcall, himplied⟩
  | @separate _ _ separator _ hseparator _ _ =>
    have hmem : separator ∈ equalCall := by simp [htokens]
    exact absurd hseparator (not_isSeparator_of_mem_equalCall separator hmem)

/-- Host arguments before the call of the line end at the first separator. -/
theorem hostWords_of_argumentWords {defaultType : String} {l r separator : Directive.Token}
    {left right : Directive.HostArg} (hl : HostWord defaultType l left)
    (hr : HostWord defaultType r right) (hseparator : separator.kind = .separator)
    (h : ArgumentWords defaultType d (l :: r :: separator :: equalCall)) :
    List.Forall₂ (HostWord defaultType) [l, r] d.hostArgs ∧ CallWords d equalCall := by
  have hname : ∀ {token host}, HostWord defaultType token host → token.kind ≠ .separator := by
    intro token host hword hkind
    simpa [Directive.isSeparator, hkind] using Directive.not_isSeparator_of_hostWord hword
  generalize htokens : l :: r :: separator :: equalCall = tokens at h
  cases h with
  | together hcall _ _ =>
    have hbare := hcall.not_isSeparator separator (by simp [← htokens])
    simp [Directive.isSeparator, hseparator] at hbare
  | @separate hosts call other hhosts hother hcall _ =>
    -- The separator is the first token that is no host argument.
    obtain _ | ⟨first, _ | ⟨second, _ | ⟨third, more⟩⟩⟩ := hosts
    · obtain ⟨rfl, -⟩ := List.cons.inj htokens
      exact absurd hother (hname hl)
    · obtain ⟨-, htokens⟩ := List.cons.inj htokens
      obtain ⟨rfl, -⟩ := List.cons.inj htokens
      exact absurd hother (hname hr)
    · simp only [List.cons_append, List.nil_append, List.cons.injEq] at htokens
      obtain ⟨rfl, rfl, rfl, rfl⟩ := htokens
      exact ⟨hhosts, hcall⟩
    · simp only [List.cons_append, List.cons.injEq] at htokens
      obtain ⟨-, -, rfl, -⟩ := htokens
      generalize d.hostArgs = hosts at hhosts
      obtain _ | ⟨-, _ | ⟨-, _ | ⟨hthird, -⟩⟩⟩ := hhosts
      exact absurd hseparator (hname hthird)

/-- A token writes one host argument. -/
theorem hostWord_unique {defaultType : String} {token : Directive.Token}
    {host other : Directive.HostArg} (hdefault : defaultType ≠ "") (htoken : token.Formed)
    (h : HostWord defaultType token host) (hother : HostWord defaultType token other) :
    host = other :=
  Except.ok.inj (((Directive.hostArgOfToken_eq_ok_iff hdefault htoken).2 h).symm.trans
    ((Directive.hostArgOfToken_eq_ok_iff hdefault htoken).2 hother))

/-- The words before the call of the line are such that the directive is such a directive. -/
theorem asksForEqual_iff_keepsCall {defaultType : String} {rest : List Directive.Token}
    (hdefault : defaultType ≠ "") (hformed : ∀ token ∈ rest, token.Formed) (hvalid : Valid d)
    (h : ArgumentWords defaultType d (rest ++ equalCall)) :
    AsksForEqual d ↔ KeepsCall defaultType rest := by
  constructor
  · rintro ⟨-, -, left, right, hhosts⟩
    obtain ⟨-, rfl | ⟨l, r, separator, rfl, hseparator, hwords⟩⟩ :=
      eq_nil_or_hostWords_of_argumentWords hvalid (by simp [hhosts]) h
    · exact .nothing
    · rw [hhosts] at hwords
      obtain _ | ⟨hl, _ | ⟨hr, -⟩⟩ := hwords
      exact .hosts hl hr hseparator
  · rintro (_ | @⟨l, r, separator, left, right, hl, hr, hseparator⟩)
    · obtain ⟨hcall, himplied⟩ := implied_of_argumentWords h
      obtain ⟨hfunction, hargs⟩ := foreignArgs_of_equalCall hcall
      rw [hargs, Directive.implied_iff] at himplied
      exact ⟨hfunction, hargs, defaultType, defaultType, himplied.symm⟩
    · obtain ⟨hwords, hcall⟩ := hostWords_of_argumentWords hl hr hseparator h
      obtain ⟨hfunction, hargs⟩ := foreignArgs_of_equalCall hcall
      refine ⟨hfunction, hargs, left, right, ?_⟩
      generalize d.hostArgs = hosts at hwords
      obtain _ | ⟨hl', _ | ⟨hr', hnil⟩⟩ := hwords
      obtain rfl := List.forall₂_nil_left_iff.1 hnil
      rw [hostWord_unique hdefault (hformed _ (by simp)) hl' hl,
        hostWord_unique hdefault (hformed _ (by simp)) hr' hr]

/-- The other method needs a default type. -/
theorem defaultType_ne_empty (h : notEqual config = .ok m) : config.defaultType ≠ "" := by
  intro hempty
  obtain ⟨type, -, htype, -⟩ := compares_of_notEqual_eq_ok h
  have hnone : (Syntax.typeOf "").toBool = false := by decide +kernel
  rw [← hempty, htype] at hnone
  cases hnone

/-- A method has the name and the result of its directive. -/
theorem name_and_result_of_ofDirective_eq_ok (hm : ofDirective config d docs = .ok m) :
    identifier d.name = .ok m.name ∧
      ∃ type, Syntax.typeOf d.result = .ok type ∧ m.result = type.tokens := by
  obtain ⟨w⟩ := nonempty_wrapped hm
  exact ⟨w.name_eq, w.result, mapError_eq_ok_iff.1 w.result_eq, w.result_tokens⟩

/-- A text that is a word has this word for its only token. -/
theorem eq_nil_of_isWord {text : String} {first : Directive.Token} {rest : List Directive.Token}
    (hword : ∀ c ∈ text.toList, isWordChar c = true)
    (htokens : Directive.tokenize text = .ok (first :: rest)) : rest = [] := by
  have hspells := Directive.tokenize_eq_ok_iff.1 htokens
  have hempty : ∀ start tokens, Directive.Spells start [] tokens → tokens = [] := by
    intro start tokens h
    have hscan := h.tokensFrom_eq_ok
    rw [Directive.tokensFrom] at hscan
    exact (Except.ok.inj hscan).symm
  have hne : text.toList ≠ [] := by
    intro hnil
    rw [hnil] at hspells
    cases hempty _ _ hspells
  rw [← List.append_nil text.toList] at hspells
  obtain ⟨_, others, place, htokens, -, -, hothers⟩ :=
    hspells.exists_cons_of_word hne hword (by simp)
  rw [(List.cons.inj htokens).2, hempty place others hothers]

/-- **The method for equality calls `Z3_mk_eq` on both of its arguments, and nothing else, exactly
if the bool type is one word or says these arguments over again.** It has its name in any case, and
its result is the type that the first word of the bool type says. -/
theorem equates_of_equality_iff {methods : List Method} (h : equality config = .ok methods) :
    ∃ m m' first rest type, methods = [m, m'] ∧
      Directive.tokenize config.boolType = .ok (first :: rest) ∧ m.name = "eq" ∧
      Syntax.typeOf first.text = .ok type ∧ m.result = type.tokens ∧
      (Equates m ↔ KeepsCall config.defaultType rest) ∧
      ((∀ c ∈ config.boolType.toList, isWordChar c = true) →
        first.text = config.boolType ∧ Equates m) := by
  simp only [equality, bind_eq_ok_iff] at h
  obtain ⟨m, hequal, m', hnotEqual, h⟩ := h
  cases h
  obtain ⟨d, hd, hm⟩ := bind_eq_ok_iff.1 hequal
  have hdefault := defaultType_ne_empty hnotEqual
  obtain ⟨first, rest, htokens, htext, hname, hresult, hwords⟩ :=
    exists_argumentWords_of_ofLine_equalLine hdefault hd
  have hvalid := (Directive.valid_of_ofLine_eq_ok hd).1
  have hformed : ∀ token ∈ rest, token.Formed := fun token htoken =>
    Directive.formed_of_mem_tokenize htokens token (by simp [htoken])
  have hiff : Equates m ↔ KeepsCall config.defaultType rest := by
    rw [← asksForEqual_iff_keepsCall hdefault hformed hvalid hwords]
    exact ⟨asksForEqual_of_equates hvalid hwords hm, fun hasks => hasks.equates hm⟩
  obtain ⟨hidentifier, type, htype, hmResult⟩ := name_and_result_of_ofDirective_eq_ok hm
  rw [hname, identifier_names.1] at hidentifier
  rw [hresult] at htype
  refine ⟨m, m', first, rest, type, rfl, htokens, (Except.ok.inj hidentifier).symm, htype, hmResult,
    hiff, fun hword => ⟨?_, ?_⟩⟩
  · rw [← String.toList_inj, htext, List.takeWhile_eq_self_iff.2 hword]
  · obtain rfl := eq_nil_of_isWord hword htokens
    exact hiff.2 .nothing

/-- A bool type of several words that says the arguments over again, the second one with a type of
its own. -/
theorem equates_of_bool_with_arguments :
    ∃ m m', equality { boolType := "Bool//x l r:Int :" } = .ok [m, m'] ∧ m.name = "eq" ∧
      Equates m := by
  have hok : (equality { boolType := "Bool//x l r:Int :" }).toBool = true := by decide +kernel
  have htokens : Directive.tokenize "Bool//x l r:Int :" = .ok
      [⟨.word, "Bool//x", 0, 7⟩, ⟨.word, "l", 8, 9⟩, ⟨.word, "r:Int", 10, 15⟩,
        ⟨.separator, ":", 16, 17⟩] := by decide +kernel
  obtain ⟨methods, hmethods⟩ := exists_eq_ok_of_toBool hok
  obtain ⟨m, m', first, rest, type, rfl, hread, hname, -, -, hiff, -⟩ :=
    equates_of_equality_iff hmethods
  obtain ⟨rfl, rfl⟩ := List.cons.inj (Except.ok.inj (htokens.symm.trans hread))
  have hl : HostWord "Expr" ⟨.word, "l", 8, 9⟩ ⟨"l", "Expr", false⟩ :=
    .word rfl (.bare (by decide)) (Directive.splitMarker_eq_iff.1 (by decide))
  have htyped : Directive.Typed "Expr" "r:Int" "r" "Int" :=
    (Directive.typed_iff (by decide) (by decide)).2 (by decide +kernel)
  have hr : HostWord "Expr" ⟨.word, "r:Int", 10, 15⟩ ⟨"r", "Int", false⟩ :=
    .word rfl htyped (Directive.splitMarker_eq_iff.1 (by decide +kernel))
  exact ⟨m, m', hmethods, hname, hiff.2 (.hosts hl hr rfl)⟩

/-- A bool type can have the method call something else, and take another argument. -/
theorem exists_not_equates :
    ∃ m m', equality { boolType := "Bool//x l r Z3_mk_eq : Z3_evil" } = .ok [m, m'] ∧
      m.params.map (·.name) = ["r", "Z3_mk_eq"] ∧ m.foreignCalls.map (·.1) = ["Z3_evil"] ∧
      ¬ Equates m := by
  have hcalls : (equality { boolType := "Bool//x l r Z3_mk_eq : Z3_evil" }).toOption.map
      (List.map fun m => (m.params.map (·.name), m.foreignCalls.map (·.1))) =
        some [(["r", "Z3_mk_eq"], ["Z3_evil"]), (["r"], [])] := by decide +kernel
  obtain ⟨methods, hmethods, hcalls⟩ := toOption_map_eq_some_iff.1 hcalls
  obtain ⟨m, rest, rfl, hm, hrest⟩ := List.map_eq_cons_iff.1 hcalls
  obtain ⟨m', rest, rfl, -, hnil⟩ := List.map_eq_cons_iff.1 hrest
  obtain rfl := List.map_eq_nil_iff.1 hnil
  obtain ⟨hparams, hfunctions⟩ := Prod.mk.inj hm
  refine ⟨m, m', hmethods, hparams, hfunctions, fun hequates => ?_⟩
  have hone := hparams.symm.trans hequates.params
  simp at hone

end ForeignWrap.Method
