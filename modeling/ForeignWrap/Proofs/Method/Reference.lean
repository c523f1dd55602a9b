import ForeignWrap.Proofs.Directive.Component
import ForeignWrap.Proofs.Directive.Reworded
import ForeignWrap.Proofs.Method.Equality
import ForeignWrap.Proofs.Method.Retention
import ForeignWrap.Proofs.Syntax.Reference

/-!
# Arguments of reference types

An argument is taken by reference, unless it is a plain value or cast. So a type that is written as
a reference asks for what it asks for without the ampersand: all rules look at the type behind it,
and the head has one ampersand in either case. Whether an argument is cast is told by its name,
though, so one that has the name of a cast variable is taken as its type is written.

## Main definitions

* `ForeignWrap.Directive.WritesReference`: a line with the type of a host argument written as a
  reference.
* `ForeignWrap.Method.Alike`: host arguments that the rules do not tell apart.
* `ForeignWrap.Method.CastsVariable`: what the call of a directive casts, by the names of variables.

## Main statements

* `ForeignWrap.Method.bind_eq_and_code_eq_iff`: such a line asks for the same method, unless the
  argument has the name of a cast variable.
-/

namespace ForeignWrap

/-! ## Lines -/

namespace Directive

/-- A host argument with its type written as a reference. -/
def HostArg.referenced (host : HostArg) : HostArg :=
  { host with type := "&" ++ host.type }

/-- The word of a host argument that is no sequence, with its type written as a reference. -/
def HostArg.referenceWord (host : HostArg) : String :=
  host.name ++ ":&" ++ host.type

/-- The line `line'` is `line` with the type of its host argument at `place` written as a reference.
The type can be part of a word. -/
inductive WritesReference (line : String) (place : Nat) (host : HostArg) (line' : String) :
    Prop where
  | written {keyword head token : Token} {front back : List Token} :
      tokenize line = .ok (keyword :: head :: (front ++ token :: back)) → front.length = place →
      (∀ c ∈ host.type.toList, isWordChar c = true) →
      token.ReplacedIn line host.referenceWord line' → WritesReference line place host line'

section Lines

variable {defaultType : String} {token : Token} {host : HostArg}

/-- What a text is cut into begins with a name that has no colon. -/
theorem name_of_splitTyped {text name type : String}
    (h : splitTyped defaultType text = .ok (name, type)) :
    ':' ∉ name.toList ∧ ∃ rest, text = name ++ rest := by
  unfold splitTyped at h
  cases hcut : Text.cutAt? ':' text with
  | none =>
    simp only [hcut, Option.getD_none] at h
    split at h
    · cases h
    · cases h
      exact ⟨Text.cutAt?_eq_none_iff.1 hcut, "", String.append_empty.symm⟩
  | some parts =>
    simp only [hcut, Option.getD_some] at h
    split at h
    · cases h
    · cases h
      obtain ⟨htext, hcolon⟩ := cutAt?_colon_iff.1 hcut
      exact ⟨hcolon, ":" ++ parts.2, by rw [htext, String.append_assoc]⟩

/-- The name of a single host argument stands in its token as it is. -/
theorem typed_of_hostArgOfToken (h : hostArgOfToken defaultType token = .ok host)
    (hsingle : host.variadic = false) :
    token.kind ≠ .literal ∧ splitMarker host.name = (host.name, false) ∧
      splitTyped defaultType token.text = .ok (host.name, host.type) := by
  unfold hostArgOfToken at h
  split at h
  case isFalse => split at h <;> cases h
  case isTrue hkind =>
    obtain ⟨⟨name, type⟩, htyped, rfl⟩ := map_eq_ok_iff.1 h
    have hmark : splitMarker name = (name, false) := by
      simp only [hostArg] at hsingle
      unfold splitMarker at hsingle ⊢
      split at hsingle
      case h_1 => cases hsingle
      case h_2 => rfl
    have hliteral : token.kind ≠ .literal := fun hliteral => by
      rw [hliteral] at hkind
      cases hkind
    have hname : hostArg name type = ⟨name, type, false⟩ := by rw [hostArg, hmark]
    simp only [hname]
    exact ⟨hliteral, hmark, htyped⟩

theorem isWordChar_of_mem_name {host : HostArg} {rest : String} (hspelled : token.Spelled)
    (hkind : token.kind ≠ .literal) (htext : token.text = host.name ++ rest) :
    ∀ c ∈ host.name.toList, isWordChar c = true := by
  cases hspelled with
  | literal _ => exact absurd rfl hkind
  | @word word _ _ _ hword =>
    intro c hc
    have hchars : word = host.name.toList ++ rest.toList := by
      simpa using congrArg String.toList htext
    exact hword c (by simp [hchars, hc])

/-- The word with the reference writes the host argument with the reference. -/
theorem hostArgOfToken_referenceWord (hsingle : host.variadic = false) (hne : host.name ≠ "")
    (hcolon : ':' ∉ host.name.toList) (hmark : splitMarker host.name = (host.name, false)) :
    hostArgOfToken defaultType (.ofWord host.referenceWord) = .ok host.referenced := by
  have htext : host.referenceWord = host.name ++ ":" ++ ("&" ++ host.type) := by
    rw [HostArg.referenceWord, ← String.toList_inj]
    simp
  have hmem : '&' ∈ host.referenceWord.toList := by simp [htext]
  have hkind : wordKind host.referenceWord = .word := by
    rw [wordKind, if_neg, if_neg]
    · intro heq
      rw [heq] at hmem
      exact absurd hmem (by decide)
    · intro heq
      rw [heq] at hmem
      exact absurd hmem (by decide)
  have htype : "&" ++ host.type ≠ "" := fun h => by simpa using congrArg String.toList h
  have htyped : splitTyped defaultType host.referenceWord = .ok (host.name, "&" ++ host.type) := by
    rw [splitTyped, cutAt?_colon_iff.2 ⟨htext, hcolon⟩, Option.getD_some]
    simp [hne, htype]
  rw [hostArgOfToken, Token.ofWord, hkind, htyped]
  simp only [TokenKind.isName, if_true, Except.map, hostArg, hmark, HostArg.referenced, hsingle]

/-- The directive of a line with the type of a host argument written as a reference. -/
theorem ofLine_of_writesReference {config : Config} {line line' : String} {place : Nat}
    {d d' : Directive} (hd : ofLine config line = .ok d) (hexplicit : d.passthrough = false)
    (hhost : d.hostArgs[place]? = some host) (hsingle : host.variadic = false)
    (hline : WritesReference line place host line') (hd' : ofLine config line' = .ok d') :
    ∃ before after, d.hostArgs = before ++ host :: after ∧ before.length = place ∧
      d' = { d with hostArgs := before ++ host.referenced :: after } := by
  obtain ⟨htokens, hplace, htype, hreplaced⟩ := hline
  subst hplace
  rename_i keyword head token front back
  have hread : ofTokens config (keyword :: head :: (front ++ token :: back)) = .ok d := by
    rw [← hd, ofLine, htokens]
    rfl
  obtain ⟨hkind, hmark, htyped⟩ :=
    typed_of_hostArgOfToken (hostArgOfToken_of_ofTokens hexplicit hread hhost) hsingle
  have hne := (ne_empty_of_splitTyped htyped).1
  obtain ⟨hcolon, rest, htext⟩ := name_of_splitTyped htyped
  have hname := isWordChar_of_mem_name
    ((tokenize_eq_ok_iff.1 htokens).spelled_of_mem token (by simp)) hkind htext
  have hword : host.referenceWord.toList.all isWordChar = true := by
    have hsigns : ":&".toList.all isWordChar = true := by decide
    rw [HostArg.referenceWord, String.toList_append, String.toList_append, List.all_append,
      List.all_append, hsigns, List.all_eq_true.2 hname, List.all_eq_true.2 htype]
    rfl
  have hother : hostArgOfToken config.defaultType (.ofWord host.referenceWord) =
      .ok host.referenced := hostArgOfToken_referenceWord hsingle hne hcolon hmark
  have hempty : host.referenceWord ≠ "" := fun h => by
    simpa [HostArg.referenceWord] using congrArg String.toList h
  have hfront : tokenize line = .ok ((keyword :: head :: front) ++ token :: back) := htokens
  rw [ofLine_eq_ofTokens (says_of_replacedIn hfront hkind (Token.spelled_ofWord hempty hword)
    (wordKind_ne_literal _) hreplaced)] at hd'
  exact ofTokens_of_reworded hexplicit hread hhost hother rfl hd'

end Lines

end Directive

/-! ## Types without their references -/

/-- A type that can be part of a word, so that it begins with no blank, is what is left of the
reference to it. -/
theorem withoutReference_reference {type : String}
    (hword : ∀ c ∈ type.toList, Directive.isWordChar c = true) :
    withoutReference ("&" ++ type) = type := by
  have hdrop : Text.dropStart? "&" ("&" ++ type) = some type :=
    Text.dropStart?_eq_some_iff.2 rfl
  have htrim : Text.trimStart type = type := by
    rw [Text.trimStart, Text.dropBlanks]
    cases hcs : type.toList with
    | nil => exact String.toList_inj.1 (by rw [hcs]; rfl)
    | cons c rest =>
      have hc := hword c (by simp [hcs])
      simp only [Directive.isWordChar, Bool.and_eq_true, Bool.not_eq_true'] at hc
      rw [List.dropWhile_cons_of_neg (by simp [hc.1]), ← hcs, String.ofList_toList]
  rw [withoutReference, hdrop]
  exact htrim

theorem isPrimitive_reference (type : String) : isPrimitive ("&" ++ type) = false := by
  have hheads : ∀ name ∈ primitiveTypes, name.toList.head? ≠ some '&' := by decide
  rw [isPrimitive, Bool.eq_false_iff, ne_eq, List.contains_iff_mem]
  exact fun hmem => hheads _ hmem (by simp)

namespace Method

open Code (Token op word)
open Directive (HostArg ForeignArg WritesReference)
open Call (identifier typeAs)

variable {config : Config} {d d' : Directive} {args : List Call.Arg} {docs : List Doc}
  {m m' : Method}

/-! ## Arguments that the rules do not tell apart -/

/-- Host arguments of one name that are of one type but for a reference. -/
structure Alike (host host' : HostArg) : Prop where
  name_eq : host'.name = host.name
  variadic_eq : host'.variadic = host.variadic
  withoutReference_eq : withoutReference host'.type = withoutReference host.type
  isPrimitive_eq : isPrimitive host'.type = isPrimitive host.type

variable {host host' : HostArg} {hosts hosts' : List HostArg}

theorem Alike.refl (host : HostArg) : Alike host host :=
  ⟨rfl, rfl, rfl, rfl⟩

theorem Alike.isExpr_eq (h : Alike host host') :
    config.isExpr host'.type = config.isExpr host.type := by
  rw [Config.isExpr, h.withoutReference_eq]
  rfl

theorem Alike.isContext_eq (h : Alike host host') :
    config.isContext host'.type = config.isContext host.type := by
  rw [Config.isContext, h.withoutReference_eq]
  rfl

theorem Alike.isRetained_eq (h : Alike host host') :
    isRetained config args host' = isRetained config args host := by
  rw [isRetained, h.isPrimitive_eq, h.isContext_eq, h.name_eq]
  rfl

theorem Alike.contextSteps_eq (h : Alike host host') (name : String) :
    contextSteps config host' name = contextSteps config host name := by
  rw [contextSteps, h.isContext_eq, h.name_eq]
  rfl

/-- Looked up by a name, alike arguments are found at the same place. -/
theorem find?_of_alike (h : List.Forall₂ Alike hosts hosts') (name : String) :
    Option.Rel Alike (hosts.find? (·.name = name)) (hosts'.find? (·.name = name)) := by
  induction h with
  | nil => exact .none
  | @cons host host' hosts hosts' hhost _ ih =>
    rw [List.find?_cons, List.find?_cons, hhost.name_eq]
    cases decide (host.name = name) with
    | true => exact .some hhost
    | false => exact ih

/-- The arguments of the call are bound alike. -/
theorem bind_of_alike (h : List.Forall₂ Alike d.hostArgs hosts') :
    Call.bind config { d with hostArgs := hosts' } = Call.bind config d := by
  have harg : ∀ foreign, Call.bindArg config { d with hostArgs := hosts' } foreign =
      Call.bindArg config d foreign := by
    intro foreign
    cases foreign with
    | literal code => rfl
    | reference text cast =>
      have hfind := find?_of_alike h (Directive.splitMarker text).1
      simp only [Call.bindArg, Directive.hostArg?]
      generalize d.hostArgs.find? _ = found at hfind ⊢
      generalize hosts'.find? _ = found' at hfind ⊢
      cases hfind with
      | none => rfl
      | some hhost =>
        simp only [Call.accessOf, hhost.isExpr_eq, hhost.name_eq, hhost.variadic_eq]
  simp only [Call.bind, funext harg]

/-- Alike arguments that are kept alive have the same names. -/
theorem map_keepAlive_of_alike (config : Config) (args : List Call.Arg)
    (h : List.Forall₂ Alike hosts hosts') (names : List String) :
    ((hosts'.zip names).filter fun (arg, _) => isRetained config args arg).map
        (fun (_, name) => Step.keepAlive name) =
      ((hosts.zip names).filter fun (arg, _) => isRetained config args arg).map
        (fun (_, name) => Step.keepAlive name) := by
  induction h generalizing names with
  | nil => rfl
  | @cons host host' hosts hosts' hhost _ ih =>
    cases names with
    | nil => rfl
    | cons name names =>
      rw [List.zip_cons_cons, List.zip_cons_cons, List.filter_cons, List.filter_cons]
      simp only [hhost.isRetained_eq]
      split
      · rw [List.map_cons, List.map_cons, ih]
      · exact ih names

theorem steps_of_alike {receiver receiver' : HostArg} (hreceiver : Alike receiver receiver')
    (h : List.Forall₂ Alike hosts hosts') (function name : String) (names : List String) :
    steps config function args receiver' name ((receiver', name) :: hosts'.zip names) =
      steps config function args receiver name ((receiver, name) :: hosts.zip names) := by
  have hkept := map_keepAlive_of_alike config args (.cons hreceiver h)
    (name :: names)
  simp only [List.zip_cons_cons] at hkept
  simp only [steps, hreceiver.contextSteps_eq, hkept]

theorem map_name_of_alike {params params' : List Param} (h : List.Forall₂ Alike hosts hosts')
    (hparams : hosts.mapM (paramOf args) = .ok params)
    (hparams' : hosts'.mapM (paramOf args) = .ok params') :
    params'.map (·.name) = params.map (·.name) := by
  induction h generalizing params params' with
  | nil =>
    cases hparams
    cases hparams'
    rfl
  | cons hhost _ ih =>
    simp only [List.mapM_cons, paramOf, bind_eq_ok_iff] at hparams hparams'
    obtain ⟨_, ⟨name, hname, _, -, ⟨⟩⟩, rest, hrest, ⟨⟩⟩ := hparams
    obtain ⟨_, ⟨name', hname', _, -, ⟨⟩⟩, rest', hrest', ⟨⟩⟩ := hparams'
    rw [hhost.name_eq, hname] at hname'
    rw [List.map_cons, List.map_cons, ih hrest hrest', Except.ok.inj hname']

/-- Directives with alike arguments ask for methods that differ in their heads at most. -/
theorem exists_params_of_alike {receiver receiver' : HostArg}
    (hhosts : d.hostArgs = receiver :: hosts) (hreceiver : Alike receiver receiver')
    (halike : List.Forall₂ Alike hosts hosts') (hm : ofDirective config d docs = .ok m)
    (hm' : ofDirective config { d with hostArgs := receiver' :: hosts' } docs = .ok m') :
    ∃ args, Call.bind config d = .ok args ∧ hosts.mapM (paramOf args) = .ok m.params ∧
      hosts'.mapM (paramOf args) = .ok m'.params ∧ m' = { m with params := m'.params } := by
  obtain ⟨args, first, receiverName, selfType, result, function, steps, hargs, hfirst,
    hreceiverName, hself, hname, hparams, hresult, hfunction, hsteps, hmethod⟩ :=
      nonempty_wrapped hm
  obtain ⟨args', first', receiverName', selfType', result', function', steps', hargs', hfirst',
    hreceiverName', hself', hname', hparams', hresult', hfunction', hsteps', hmethod'⟩ :=
      nonempty_wrapped hm'
  obtain ⟨rfl, hrest⟩ := List.cons.inj (hfirst.symm.trans hhosts)
  obtain ⟨rfl, hrest'⟩ := List.cons.inj hfirst'
  rw [hrest] at hparams hsteps
  rw [← hrest'] at hparams' hsteps'
  have hall : List.Forall₂ Alike d.hostArgs (receiver' :: hosts') := by
    rw [hhosts]
    exact .cons hreceiver halike
  rw [bind_of_alike hall, hargs] at hargs'
  rw [hreceiver.name_eq] at hreceiverName'
  rw [hreceiver.withoutReference_eq] at hself'
  cases hargs'
  cases hself.symm.trans hself'
  cases hresult.symm.trans hresult'
  cases hreceiverName.symm.trans hreceiverName'
  cases hfunction.symm.trans hfunction'
  rw [map_name_of_alike halike hparams hparams', steps_of_alike hreceiver halike, hsteps] at hsteps'
  cases hsteps'
  refine ⟨args, hargs, hparams, hparams', ?_⟩
  rw [hmethod', hmethod, Except.ok.inj (hname.symm.trans hname')]

/-! ## Heads -/

/-- Where one of several pieces stands does not depend on what it is. -/
theorem exists_separated_eq (separator : List Token) (before after : List (List Token)) :
    ∃ front back, ∀ piece,
      Code.separated separator (before ++ piece :: after) = front ++ (piece ++ back) := by
  induction before with
  | nil =>
    cases after with
    | nil => exact ⟨[], [], fun piece => by simp [Code.separated]⟩
    | cons next after =>
      exact ⟨[], separator ++ Code.separated separator (next :: after), fun piece => by
        simp [Code.separated]⟩
  | cons first before ih =>
    obtain ⟨front, back, hpieces⟩ := ih
    refine ⟨first ++ separator ++ front, back, fun piece => ?_⟩
    rw [List.cons_append, Parts.separated_cons (by simp), hpieces]
    simp

/-- Methods with one argument declared in another way are the same code only if the declarations
are. -/
theorem code_eq_code_iff (m : Method) (before after : List Param) {param param' : Param} :
    ({ m with params := before ++ param' :: after } : Method).code =
        ({ m with params := before ++ param :: after } : Method).code ↔
      param'.code = param.code := by
  obtain ⟨front, back, hpieces⟩ := exists_separated_eq (op ",")
    (referenceCode (word "self") :: before.map (·.code)) (after.map (·.code))
  have hparams : ∀ param : Param, Code.separated (op ",") (referenceCode (word "self") ::
      (before ++ param :: after).map (·.code)) = front ++ (param.code ++ back) := fun param => by
    rw [List.map_append, List.map_cons, ← List.cons_append, hpieces]
  simp only [Method.code, signatureCode, callCode, hparams, Code.parens, Code.braces]
  simp

/-- An argument has one ampersand more if its type is written as a reference, unless it is taken by
reference without. -/
theorem code_eq_iff_of_paramOf {param param' : Param} (hsingle : host.variadic = false)
    (hprimitive : isPrimitive host.type = false) (hbare : Text.beginsWith "&" host.type = false)
    (h : paramOf args host = .ok param) (h' : paramOf args host.referenced = .ok param') :
    param'.code = param.code ↔ Call.isCast args host.name = false := by
  obtain ⟨name, hname, h⟩ := bind_eq_ok_iff.1 h
  obtain ⟨written, htype, h⟩ := bind_eq_ok_iff.1 h
  obtain ⟨name', hname', h'⟩ := bind_eq_ok_iff.1 h'
  obtain ⟨written', htype', h'⟩ := bind_eq_ok_iff.1 h'
  cases h
  cases h'
  cases hname.symm.trans hname'
  have htokens := Syntax.tokens_of_typeOf_reference (mapError_eq_ok_iff.1 htype)
    (mapError_eq_ok_iff.1 htype')
  have hreferenced : passingOf args host.referenced = .byValue := by
    have hbegins : Text.beginsWith "&" ("&" ++ host.type) = true :=
      Text.beginsWith_iff.2 ⟨host.type, rfl⟩
    simp [passingOf, HostArg.referenced, hsingle, hbegins]
  have hpassing : passingOf args host =
      if Call.isCast args host.name then .byValue else .byReference := by
    simp [passingOf, hsingle, hprimitive, hbare]
  simp only [Param.code, hreferenced, hpassing, htokens]
  cases Call.isCast args host.name <;> simp [referenceCode, op, Code.opSigns]

/-! ## Casts of a variable -/

/-- Some argument of the call casts a host argument whose name is read as `name`. -/
def CastsVariable (d : Directive) (name : String) : Prop :=
  ∃ text type, ForeignArg.reference text (some type) ∈ d.foreignArgs ∧
    identifier (Directive.splitMarker text).1 = .ok name

theorem casts_iff_of_binds {foreign : ForeignArg} {arg : Call.Arg}
    (h : Call.Binds config d foreign arg) (name : String) :
    arg.casts name = true ↔ ∃ text type, foreign = .reference text (some type) ∧
      identifier (Directive.splitMarker text).1 = .ok name := by
  cases h with
  | literal _ => simp [Call.Arg.casts]
  | @read text name' cast host access hplace hname haccess hidentifier =>
    rw [hname] at hidentifier
    cases cast with
    | some type =>
      obtain ⟨written, -, rfl⟩ := map_eq_ok_iff.1 haccess
      simp [Call.Arg.casts, hidentifier]
    | none =>
      obtain rfl : (if config.isExpr host.type then .unwrap else .handle) = access :=
        Except.ok.inj haccess
      cases config.isExpr host.type <;> simp [Call.Arg.casts]

theorem isCast_iff_castsVariable (hargs : Call.bind config d = .ok args) (name : String) :
    Call.isCast args name = true ↔ CastsVariable d name := by
  have hbinds := Call.binds_of_bind_eq_ok hargs
  rw [Call.isCast, CastsVariable]
  generalize d.foreignArgs = foreignArgs at hbinds
  clear hargs
  induction hbinds with
  | nil => simp
  | cons h _ ih =>
    rw [List.any_cons, Bool.or_eq_true]
    refine (or_congr (casts_iff_of_binds h name) ih).trans ?_
    simp only [List.mem_cons, or_and_right, exists_or, eq_comm]

/-- Where names are code as they are written, what is cast is the host argument of the name. -/
theorem castsVariable_iff_castsHost (hvalid : Directive.Valid d)
    (hplain : ∀ other ∈ d.hostArgs, identifier other.name = .ok other.name)
    (hhost : host ∈ d.hostArgs) : CastsVariable d host.name ↔ CastsHost d host.name := by
  constructor
  · rintro ⟨text, type, hforeign, hname⟩
    obtain ⟨other, hother, hsame, -⟩ := hvalid.refers_host _ hforeign (Directive.splitMarker text).1
      (Directive.splitMarker text).2 (Directive.refers_reference_iff.2 rfl)
    rw [← hsame, hplain other hother] at hname
    have hsplit : Directive.splitMarker text = (host.name, (Directive.splitMarker text).2) :=
      Prod.ext (hsame.symm.trans (Except.ok.inj hname)) rfl
    exact ⟨text, type, _, hforeign, Directive.splitMarker_eq_iff.1 hsplit⟩
  · rintro ⟨text, type, marked, hforeign, hmarked⟩
    refine ⟨text, type, hforeign, ?_⟩
    rw [Directive.splitMarker_eq_iff.2 hmarked]
    exact hplain host hhost

/-! ## Methods -/

theorem alike_referenced (hprimitive : isPrimitive host.type = false)
    (hbare : Text.beginsWith "&" host.type = false)
    (hword : ∀ c ∈ host.type.toList, Directive.isWordChar c = true) :
    Alike host host.referenced where
  name_eq := rfl
  variadic_eq := rfl
  withoutReference_eq := by
    rw [withoutReference_eq_self hbare]
    exact withoutReference_reference hword
  isPrimitive_eq := by
    rw [hprimitive]
    exact isPrimitive_reference host.type

theorem forall₂_alike_append (before after : List HostArg) (h : Alike host host') :
    List.Forall₂ Alike (before ++ host :: after) (before ++ host' :: after) := by
  have hrefl : ∀ hosts : List HostArg, List.Forall₂ Alike hosts hosts := fun hosts =>
    List.forall₂_same.2 fun host _ => .refl host
  exact List.rel_append (hrefl before) (.cons h (hrefl after))

/-- **Writing a type by reference changes nothing**, as long as no variable of the name is cast. Of
a line and the line in which the type of one host argument is written with an ampersand, if both ask
for a method, the arguments of the call are bound alike. The two methods are the same code exactly
if the argument is the receiver or no cast reads a variable of its name. Where all names are code as
they are written, such a cast names the argument itself. -/
theorem bind_eq_and_code_eq_iff {line line' : String} {place : Nat}
    (hd : Directive.ofLine config line = .ok d) (hexplicit : d.passthrough = false)
    (hhost : d.hostArgs[place]? = some host) (hsingle : host.variadic = false)
    (hprimitive : isPrimitive host.type = false) (hbare : Text.beginsWith "&" host.type = false)
    (hline : WritesReference line place host line') (hd' : Directive.ofLine config line' = .ok d')
    (hm : ofDirective config d docs = .ok m) (hm' : ofDirective config d' docs = .ok m') :
    Call.bind config d' = Call.bind config d ∧
      (m'.code = m.code ↔ place = 0 ∨ ¬ CastsVariable d host.name) ∧
      ((∀ other ∈ d.hostArgs, identifier other.name = .ok other.name) →
        (CastsVariable d host.name ↔ CastsHost d host.name)) := by
  have hvalid := (Directive.valid_of_ofLine_eq_ok hd).1
  obtain ⟨before, after, hhosts, hplace, rfl⟩ :=
    Directive.ofLine_of_writesReference hd hexplicit hhost hsingle hline hd'
  have hword : ∀ c ∈ host.type.toList, Directive.isWordChar c = true := by
    cases hline
    assumption
  have halike := alike_referenced hprimitive hbare hword
  have hall := forall₂_alike_append before after halike
  rw [← hhosts] at hall
  refine ⟨bind_of_alike hall, ?_, fun hplain => ?_⟩
  · cases before with
    | nil =>
      -- The type of the receiver is not in the head.
      obtain ⟨args, -, hparams, hparams', hm'⟩ := exists_params_of_alike hhosts halike
        (List.forall₂_same.2 fun host _ => .refl host) hm hm'
      rw [hparams] at hparams'
      rw [hm', ← Except.ok.inj hparams']
      simp [← hplace]
    | cons receiver before =>
      rw [List.cons_append] at hhosts hm'
      obtain ⟨args, hargs, hparams, hparams', hm'⟩ := exists_params_of_alike hhosts (.refl receiver)
        (forall₂_alike_append before after halike) hm hm'
      simp only [List.mapM_append, List.mapM_cons, bind_eq_ok_iff] at hparams hparams'
      obtain ⟨front, hfront, _, ⟨param, hparam, back, hback, ⟨⟩⟩, hsplit⟩ := hparams
      obtain ⟨front', hfront', _, ⟨param', hparam', back', hback', ⟨⟩⟩, hsplit'⟩ := hparams'
      cases hfront.symm.trans hfront'
      cases hback.symm.trans hback'
      have hsplit : front ++ param :: back = m.params := Except.ok.inj hsplit
      have hsplit' : front ++ param' :: back = m'.params := Except.ok.inj hsplit'
      have hcode : m'.code = m.code ↔ param'.code = param.code := by
        rw [hm', ← hsplit', ← code_eq_code_iff m front back, hsplit]
      rw [hcode, code_eq_iff_of_paramOf hsingle hprimitive hbare hparam hparam',
        ← isCast_iff_castsVariable hargs, Bool.not_eq_true]
      simp [← hplace]
  · exact castsVariable_iff_castsHost hvalid hplain (List.mem_of_getElem? hhost)

theorem code_eq_of_int_line :
    ∃ d d' m m',
      Directive.ofLine {} "//wrap:expr f x n:Int : Z3_f x n" = .ok d ∧
      d.hostArgs[1]? = some ⟨"n", "Int", false⟩ ∧
      WritesReference "//wrap:expr f x n:Int : Z3_f x n" 1 ⟨"n", "Int", false⟩
        "//wrap:expr f x n:&Int : Z3_f x n" ∧
      Directive.ofLine {} "//wrap:expr f x n:&Int : Z3_f x n" = .ok d' ∧ d' ≠ d ∧
      ofDirective {} d [] = .ok m ∧ ofDirective {} d' [] = .ok m' ∧
      Call.bind {} d' = Call.bind {} d ∧ (m'.code = m.code ↔ 1 = 0 ∨ ¬ CastsVariable d "n") ∧
      (CastsVariable d "n" ↔ CastsHost d "n") ∧ m'.code = m.code := by
  have hd : Directive.ofLine {} "//wrap:expr f x n:Int : Z3_f x n" =
      .ok ⟨"f", "Expr", [⟨"x", "Expr", false⟩, ⟨"n", "Int", false⟩], "Z3_f",
        [.reference "x" none, .reference "n" none], false, false⟩ := by
    decide +kernel
  have hd' : Directive.ofLine {} "//wrap:expr f x n:&Int : Z3_f x n" =
      .ok ⟨"f", "Expr", [⟨"x", "Expr", false⟩, ⟨"n", "&Int", false⟩], "Z3_f",
        [.reference "x" none, .reference "n" none], false, false⟩ := by
    decide +kernel
  obtain ⟨m, -, hm⟩ := exists_ofLine_eq_ok hd [] (by decide +kernel)
  obtain ⟨m', -, hm'⟩ := exists_ofLine_eq_ok hd' [] (by decide +kernel)
  have htokens : Directive.tokenize "//wrap:expr f x n:Int : Z3_f x n" =
      .ok (⟨.keyword, "//wrap:expr", 0, 11⟩ :: ⟨.word, "f", 12, 13⟩ :: ([⟨.word, "x", 14, 15⟩] ++
        ⟨.word, "n:Int", 16, 21⟩ :: [⟨.separator, ":", 22, 23⟩, ⟨.word, "Z3_f", 24, 28⟩,
          ⟨.word, "x", 29, 30⟩, ⟨.word, "n", 31, 32⟩])) := by
    decide +kernel
  have hline : WritesReference "//wrap:expr f x n:Int : Z3_f x n" 1 ⟨"n", "Int", false⟩
      "//wrap:expr f x n:&Int : Z3_f x n" :=
    .written htokens rfl (List.all_eq_true.1 (by decide)) ⟨"//wrap:expr f x ", " : Z3_f x n",
      by decide +kernel, by decide +kernel, by decide +kernel⟩
  obtain ⟨hbind, hcode, hcasts⟩ := bind_eq_and_code_eq_iff hd rfl rfl rfl (by decide +kernel)
    (by decide +kernel) hline hd' hm hm'
  refine ⟨_, _, m, m', hd, rfl, hline, hd', by decide +kernel, hm, hm', hbind, hcode,
    hcasts (by decide +kernel), hcode.2 (.inr ?_)⟩
  rintro ⟨text, type, hforeign, -⟩
  simp at hforeign

/-- An argument of the name of a cast variable is taken as its type is written, though the call does
not cast it. -/
theorem exists_code_ne_of_reference :
    ∃ d d' m m',
      Directive.ofLine {} "//wrap:expr f x n:Int n//:u32 : Z3_f x n n//:c_int" = .ok d ∧
      d.passthrough = false ∧ d.hostArgs[1]? = some ⟨"n", "Int", false⟩ ∧
      ¬ CastsHost d "n" ∧ isPrimitive "Int" = false ∧ Text.beginsWith "&" "Int" = false ∧
      WritesReference "//wrap:expr f x n:Int n//:u32 : Z3_f x n n//:c_int" 1 ⟨"n", "Int", false⟩
        "//wrap:expr f x n:&Int n//:u32 : Z3_f x n n//:c_int" ∧
      Directive.ofLine {} "//wrap:expr f x n:&Int n//:u32 : Z3_f x n n//:c_int" = .ok d' ∧
      ofDirective {} d [] = .ok m ∧ ofDirective {} d' [] = .ok m' ∧ m'.code ≠ m.code := by
  have hd : Directive.ofLine {} "//wrap:expr f x n:Int n//:u32 : Z3_f x n n//:c_int" =
      .ok ⟨"f", "Expr", [⟨"x", "Expr", false⟩, ⟨"n", "Int", false⟩, ⟨"n//", "u32", false⟩], "Z3_f",
        [.reference "x" none, .reference "n" none, .reference "n//" (some "c_int")], false,
        false⟩ := by
    decide +kernel
  have htokens : Directive.tokenize "//wrap:expr f x n:Int n//:u32 : Z3_f x n n//:c_int" =
      .ok (⟨.keyword, "//wrap:expr", 0, 11⟩ :: ⟨.word, "f", 12, 13⟩ :: ([⟨.word, "x", 14, 15⟩] ++
        ⟨.word, "n:Int", 16, 21⟩ :: [⟨.word, "n//:u32", 22, 29⟩, ⟨.separator, ":", 30, 31⟩,
          ⟨.word, "Z3_f", 32, 36⟩, ⟨.word, "x", 37, 38⟩, ⟨.word, "n", 39, 40⟩,
          ⟨.word, "n//:c_int", 41, 50⟩])) := by
    decide +kernel
  have hd' : Directive.ofLine {} "//wrap:expr f x n:&Int n//:u32 : Z3_f x n n//:c_int" =
      .ok ⟨"f", "Expr", [⟨"x", "Expr", false⟩, ⟨"n", "&Int", false⟩, ⟨"n//", "u32", false⟩], "Z3_f",
        [.reference "x" none, .reference "n" none, .reference "n//" (some "c_int")], false,
        false⟩ := by
    decide +kernel
  have hsize : (ofLine {} "//wrap:expr f x n:Int n//:u32 : Z3_f x n n//:c_int" []).toOption.map
      (fun m => Code.sizeOf m.code) = some 94 := by
    rw [ofLine, hd]
    decide +kernel
  have hsize' : (ofLine {} "//wrap:expr f x n:&Int n//:u32 : Z3_f x n n//:c_int" []).toOption.map
      (fun m => Code.sizeOf m.code) = some 95 := by
    rw [ofLine, hd']
    decide +kernel
  obtain ⟨m, hm, hsize⟩ := toOption_map_eq_some_iff.1 hsize
  obtain ⟨m', hm', hsize'⟩ := toOption_map_eq_some_iff.1 hsize'
  have hline : WritesReference "//wrap:expr f x n:Int n//:u32 : Z3_f x n n//:c_int" 1
      ⟨"n", "Int", false⟩ "//wrap:expr f x n:&Int n//:u32 : Z3_f x n n//:c_int" :=
    .written htokens rfl (List.all_eq_true.1 (by decide)) ⟨"//wrap:expr f x ",
      " n//:u32 : Z3_f x n n//:c_int", by decide +kernel, by decide +kernel, by decide +kernel⟩
  refine ⟨_, _, m, m', hd, rfl, rfl, ?_, by decide +kernel, by decide +kernel, hline, hd',
    ofDirective_eq_ok_of_ofLine hd hm, ofDirective_eq_ok_of_ofLine hd' hm', fun hcode => ?_⟩
  · rw [← any_casts_iff]
    decide +kernel
  · rw [hcode, hsize] at hsize'
    cases hsize'

end Method

end ForeignWrap
