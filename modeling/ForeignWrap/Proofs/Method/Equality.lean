import ForeignWrap.Method.Code
import ForeignWrap.Method.Equality
import ForeignWrap.Proofs.Directive.Separator
import ForeignWrap.Proofs.Method.Wrap

/-!
# The methods for equality

One of the two methods for equality is asked for by a directive line, like any other method; the
other one is written down as it is. To the line the default type is the type of its two arguments,
and what is a rule for arguments is one for them: plain values and references are taken as they are.
The other method knows no such rule, so the two have one signature just for the remaining types.

## Main definitions

* `ForeignWrap.Method.equalDirective`, `ForeignWrap.Method.ofLine_equalLine`: what the line asks
  for, if the bool type is a word.
* `ForeignWrap.Method.Compares`: a method that takes one argument to compare its receiver with.
* `ForeignWrap.Method.SameSignature`: methods that are called alike.
* `ForeignWrap.Method.sameSignature_of_equality_iff`: for which default types the two methods are.
-/

namespace ForeignWrap

/-! ## Lines of words -/

namespace Directive

/-- The token of a word, wherever it stands. -/
def Token.ofWord (text : String) : Token :=
  ⟨wordKind text, text, 0, 0⟩

theorem Token.spelled_ofWord {text : String} (hne : text ≠ "")
    (htext : text.toList.all isWordChar = true) : (Token.ofWord text).Spelled := by
  have hchars : text.toList ≠ [] := fun h => hne (String.toList_inj.1 h)
  simpa [Token.ofWord] using
    @Token.Spelled.word text.toList 0 0 hchars (List.all_eq_true.1 htext)

/-- A line of words with single spaces says these words. -/
theorem ofLine_spaced_words {texts : List String} (config : Config)
    (htexts : ∀ text ∈ texts, text ≠ "" ∧ text.toList.all isWordChar = true) :
    ofLine config (spaced texts) = ofTokens config (texts.map Token.ofWord) := by
  have hspelled : ∀ token ∈ texts.map Token.ofWord, token.Spelled := by
    rw [List.forall_mem_map]
    exact fun text htext => Token.spelled_ofWord (htexts text htext).1 (htexts text htext).2
  have hline := ofLine_spaced config hspelled
  rwa [List.map_map, show (fun token : Token => token.text) ∘ Token.ofWord = id from rfl,
    List.map_id] at hline

end Directive

namespace Method

open Code (Token op word)
open Directive (isWordChar)
open Call (identifier typeAs)

variable {config : Config}

/-! ## The directive of the line -/

/-- The directive that the line for equality asks for. -/
def equalDirective (config : Config) : Directive where
  name := "eq"
  result := config.boolType
  hostArgs := [⟨"l", config.defaultType, false⟩, ⟨"r", config.defaultType, false⟩]
  foreignFunction := "Z3_mk_eq"
  foreignArgs := [.reference "l" none, .reference "r" none]
  variadic := false
  passthrough := true

/-- The words of the line. -/
def equalWords (config : Config) : List String :=
  [directiveKeyword, "eq:" ++ config.boolType, "Z3_mk_eq", "l", "r"]

theorem equalLine_eq_spaced (config : Config) :
    equalLine config = Directive.spaced (equalWords config) := by
  rw [← String.toList_inj]
  simp [equalLine, equalWords]

/-- The head of the line begins with a name, so it is neither the keyword nor a separator. -/
theorem wordKind_equalHead (config : Config) :
    Directive.wordKind ("eq:" ++ config.boolType) = .word := by
  have hhead : ∀ text : String, text.toList.head? ≠ some 'e' → "eq:" ++ config.boolType ≠ text := by
    rintro _ htext rfl
    simp at htext
  rw [Directive.wordKind, if_neg (hhead _ (by decide)), if_neg (hhead _ (by decide))]

theorem isWord_of_mem_equalWords (hbool : ∀ c ∈ config.boolType.toList, isWordChar c = true) :
    ∀ text ∈ equalWords config, text ≠ "" ∧ text.toList.all isWordChar = true := by
  have hhead : ("eq:" ++ config.boolType).toList.all isWordChar = true := by
    rw [String.toList_append, List.all_append, List.all_eq_true.2 hbool, Bool.and_true]
    rfl
  have hne : "eq:" ++ config.boolType ≠ "" := fun h => by
    simpa using congrArg (·.toList.head?) h
  simp only [equalWords, List.forall_mem_cons]
  exact ⟨⟨by decide, by decide⟩, ⟨hne, hhead⟩, ⟨by decide, by decide⟩, ⟨by decide, by decide⟩,
    ⟨by decide, by decide⟩, by simp⟩

/-- The line asks for its directive, if the bool type is a word. Nothing is asked of the default
type, which may be empty here. -/
theorem ofLine_equalLine (hbool : ∀ c ∈ config.boolType.toList, isWordChar c = true) :
    Directive.ofLine config (equalLine config) =
      if config.boolType = "" then .error (.emptyComponent ("eq:" ++ config.boolType))
      else .ok (equalDirective config) := by
  have hcut : Text.cutAt? ':' ("eq:" ++ config.boolType) = some ("eq", config.boolType) :=
    Directive.cutAt?_colon_iff.2 ⟨rfl, by decide⟩
  have hsplit : Directive.splitTyped config.defaultType ("eq:" ++ config.boolType) =
      if config.boolType = "" then .error (.emptyComponent ("eq:" ++ config.boolType))
      else .ok ("eq", config.boolType) := by
    rw [Directive.splitTyped, hcut]
    simp
  have hname : (Directive.Token.ofWord ("eq:" ++ config.boolType)).kind.isName = true := by
    rw [Directive.Token.ofWord, wordKind_equalHead]
    rfl
  rw [equalLine_eq_spaced, Directive.ofLine_spaced_words config (isWord_of_mem_equalWords hbool),
    equalWords, List.map_cons, List.map_cons, Directive.ofTokens_cons rfl hname,
    Directive.Token.ofWord, hsplit]
  split_ifs <;> rfl

/-- An argument of the method that is named without a cast is read as its type asks for. -/
theorem bindArg_reference {d : Directive} {text name : String} (host : Directive.HostArg)
    (hhost : d.hostArg? (Directive.splitMarker text).1 = some host)
    (hname : identifier host.name = .ok name) :
    Call.bindArg config d (.reference text none) =
      .ok (.read name (if config.isExpr host.type then .unwrap else .handle) host.variadic) := by
  simp only [Call.bindArg, hhost, hname]
  rfl

/-- The call of the line reads both of its arguments, and casts none. -/
theorem bind_equalDirective (config : Config) :
    Call.bind config (equalDirective config) = .ok
      (["l", "r"].map fun name =>
        .read name (if config.isExpr config.defaultType then .unwrap else .handle) false) := by
  have hnames : identifier "l" = .ok "l" ∧ identifier "r" = .ok "r" := by decide +kernel
  have hl : Call.bindArg config (equalDirective config) (.reference "l" none) =
      .ok (.read "l" (if config.isExpr config.defaultType then .unwrap else .handle) false) :=
    bindArg_reference ⟨"l", config.defaultType, false⟩ rfl hnames.1
  have hr : Call.bindArg config (equalDirective config) (.reference "r" none) =
      .ok (.read "r" (if config.isExpr config.defaultType then .unwrap else .handle) false) :=
    bindArg_reference ⟨"r", config.defaultType, false⟩ rfl hnames.2
  have hargs : (equalDirective config).foreignArgs = [.reference "l" none, .reference "r" none] :=
    rfl
  rw [Call.bind, hargs, List.mapM_cons, List.mapM_cons, hl, hr]
  rfl

/-! ## Signatures -/

/-- The type that an argument is declared with, as it is passed. -/
def Param.declared (param : Param) : List Token :=
  match param.passing with
  | .byValue => param.type
  | .byReference => referenceCode param.type
  | .slice => referenceCode (Code.brackets param.type)

/-- A method on the type `owner` that takes one argument `r`, of a declared type, and has a
result. -/
structure Compares (m : Method) (owner declared result : List Token) : Prop where
  selfType : m.selfType = owner
  params : ∃ param, m.params = [param] ∧ param.name = "r" ∧ param.declared = declared
  result : m.result = result

/-- Methods on one type that take one argument `r` of the same declared type, and have the same
result. -/
def SameSignature (m m' : Method) : Prop :=
  ∃ owner declared result, Compares m owner declared result ∧ Compares m' owner declared result

/-- Whether an argument of the default type is taken as it is. -/
def TakenAsItIs (type : String) : Prop :=
  isPrimitive type = true ∨ Text.beginsWith "&" type = true

instance (type : String) : Decidable (TakenAsItIs type) :=
  inferInstanceAs (Decidable (_ ∨ _))

/-- An argument that is no sequence and not cast is taken as it is, or by reference. -/
theorem passingOf_of_not_isCast {args : List Call.Arg} {host : Directive.HostArg}
    (hsingle : host.variadic = false) (hcast : Call.isCast args host.name = false) :
    passingOf args host = if TakenAsItIs host.type then .byValue else .byReference := by
  have hvalue : (isPrimitive host.type || false || Text.beginsWith "&" host.type) = true ↔
      TakenAsItIs host.type := by simp [TakenAsItIs]
  simp only [passingOf, hsingle, hcast, hvalue]
  rfl

/-- The method of the line follows the rules for arguments. -/
theorem compares_of_equal_eq_ok (hbool : ∀ c ∈ config.boolType.toList, isWordChar c = true)
    {m : Method} (h : equal config = .ok m) :
    ∃ owner type result, Syntax.typeOf (withoutReference config.defaultType) = .ok owner ∧
      Syntax.typeOf config.defaultType = .ok type ∧
      Syntax.typeOf config.boolType = .ok result ∧
      Compares m owner.tokens
        (if TakenAsItIs config.defaultType then type.tokens else referenceCode type.tokens)
        result.tokens := by
  have hname : identifier "r" = .ok "r" := by decide +kernel
  obtain ⟨d, hd, h⟩ := bind_eq_ok_iff.1 h
  rw [ofLine_equalLine hbool] at hd
  split_ifs at hd
  cases hd
  obtain ⟨w⟩ := nonempty_wrapped h
  have hargs := w.args_eq
  rw [bind_equalDirective] at hargs
  have howner := w.selfType_eq
  rw [← (List.cons.inj w.hosts_eq).1] at howner
  obtain ⟨param, params, hparam, hnil, hparams⟩ := List.forall₂_cons_left_iff.1 w.forall₂_params
  obtain rfl := List.forall₂_nil_left_iff.1 hnil
  obtain ⟨_, hr, hparam⟩ := bind_eq_ok_iff.1 hparam
  obtain ⟨type, htype, hparam⟩ := bind_eq_ok_iff.1 hparam
  cases hparam
  obtain rfl := Except.ok.inj (hname.symm.trans hr)
  refine ⟨w.selfType, type, w.result, mapError_eq_ok_iff.1 howner, mapError_eq_ok_iff.1 htype,
    mapError_eq_ok_iff.1 w.result_eq, w.selfType_tokens, ⟨_, hparams, rfl, ?_⟩, w.result_tokens⟩
  rw [← Except.ok.inj hargs]
  rw [passingOf_of_not_isCast rfl (by cases config.isExpr config.defaultType <;> rfl)]
  by_cases hasIs : TakenAsItIs config.defaultType
  · simp only [if_pos hasIs, Param.declared]
  · simp only [if_neg hasIs, Param.declared]

/-- The other method is written for the default type as it stands. -/
theorem compares_of_notEqual_eq_ok {m : Method} (h : notEqual config = .ok m) :
    ∃ type result, Syntax.typeOf config.defaultType = .ok type ∧
      Syntax.typeOf config.boolType = .ok result ∧
      Compares m type.tokens (referenceCode type.tokens) result.tokens := by
  simp only [notEqual, bind_eq_ok_iff] at h
  obtain ⟨type, htype, result, hresult, _, -, h⟩ := h
  cases h
  exact ⟨type, result, mapError_eq_ok_iff.1 htype, mapError_eq_ok_iff.1 hresult, rfl,
    ⟨_, rfl, rfl, rfl⟩, rfl⟩

/-- A default type that is not taken as it is has no reference before it. -/
theorem withoutReference_eq_self {type : String} (h : Text.beginsWith "&" type = false) :
    withoutReference type = type := by
  have hnone : Text.dropStart? "&" type = none := by
    rw [Option.eq_none_iff_forall_ne_some]
    intro rest hrest
    rw [Text.beginsWith_iff.2 ⟨rest, Text.dropStart?_eq_some_iff.1 hrest⟩] at h
    cases h
  rw [withoutReference, hnone]

theorem sameSignature_iff_not_takenAsItIs {m m' : Method}
    (hbool : ∀ c ∈ config.boolType.toList, isWordChar c = true) (hequal : equal config = .ok m)
    (hnotEqual : notEqual config = .ok m') :
    SameSignature m m' ↔ ¬ TakenAsItIs config.defaultType := by
  obtain ⟨owner, type, result, howner, htype, hresult, hm⟩ := compares_of_equal_eq_ok hbool hequal
  obtain ⟨type', result', htype', hresult', hm'⟩ := compares_of_notEqual_eq_ok hnotEqual
  obtain rfl := Except.ok.inj (htype.symm.trans htype')
  obtain rfl := Except.ok.inj (hresult.symm.trans hresult')
  constructor
  · rintro ⟨_, _, _, ⟨-, ⟨param, hparam, -, rfl⟩, -⟩, -, ⟨param', hparam', -, hdeclared⟩, -⟩ hasIs
    obtain ⟨_, hp, -, htaken⟩ := hm.params
    obtain ⟨_, hp', -, htaken'⟩ := hm'.params
    obtain rfl : param = _ := by simpa using hparam.symm.trans hp
    obtain rfl : param' = _ := by simpa using hparam'.symm.trans hp'
    rw [if_pos hasIs] at htaken
    -- One of the two types has a sign more than the other.
    have hlength := congrArg List.length (htaken.symm.trans (hdeclared.symm.trans htaken'))
    simp [referenceCode, op, Code.opSigns] at hlength
  · intro hasIs
    rw [if_neg hasIs] at hm
    have hbare : Text.beginsWith "&" config.defaultType = false := by
      simpa using fun hbegins => hasIs (.inr hbegins)
    rw [withoutReference_eq_self hbare, htype] at howner
    cases howner
    exact ⟨_, _, _, hm, hm'⟩

/-- **The two methods for equality have one signature exactly if arguments of the default type are
taken by reference**, where the bool type is a word. A plain value and a reference are not. -/
theorem sameSignature_of_equality_iff {methods : List Method}
    (hbool : ∀ c ∈ config.boolType.toList, isWordChar c = true)
    (h : equality config = .ok methods) :
    ∃ m m', methods = [m, m'] ∧ (SameSignature m m' ↔ ¬ TakenAsItIs config.defaultType) := by
  simp only [equality, bind_eq_ok_iff] at h
  obtain ⟨m, hequal, m', hnotEqual, h⟩ := h
  cases h
  exact ⟨m, m', rfl, sameSignature_iff_not_takenAsItIs hbool hequal hnotEqual⟩

/-- The methods for a type that is a plain path are called alike. -/
theorem sameSignature_of_int :
    ∃ m m', equality { defaultType := "Int" } = .ok [m, m'] ∧ SameSignature m m' := by
  have hok : (equality { defaultType := "Int" }).toBool = true := by decide +kernel
  obtain ⟨methods, hmethods⟩ := exists_eq_ok_of_toBool hok
  obtain ⟨m, m', rfl, hsame⟩ :=
    sameSignature_of_equality_iff (List.all_eq_true.1 (by decide)) hmethods
  exact ⟨m, m', hmethods, hsame.2 (by decide)⟩

/-- A plain value is compared with another one by value, but with a reference to one. -/
theorem not_sameSignature_of_i64 :
    ∃ m m', equality { defaultType := "i64" } = .ok [m, m'] ∧ ¬ SameSignature m m' := by
  have hequal : (equal { defaultType := "i64" }).toBool = true := by decide +kernel
  have hnotEqual : (notEqual { defaultType := "i64" }).toBool = true := by decide +kernel
  obtain ⟨m, hm⟩ := exists_eq_ok_of_toBool hequal
  obtain ⟨m', hm'⟩ := exists_eq_ok_of_toBool hnotEqual
  refine ⟨m, m', ?_, fun hsame => ?_⟩
  · rw [equality, hm, hm']
    rfl
  · exact (sameSignature_iff_not_takenAsItIs (List.all_eq_true.1 (by decide)) hm hm').1 hsame
      (.inl (by decide))

end Method

end ForeignWrap
