import ForeignWrap.Method.Equality
import ForeignWrap.Proofs.Method.Call

/-!
# Methods as items

A method is read as an impl block with one function, and the statements of this function are those
of its body, whatever the types in its head are. So the foreign function is called in the first
statement of the body that does more than give names.

## Main definitions

* `ForeignWrap.Method.HeadIsWhole`: the head has whole types and a name.
* `ForeignWrap.Method.isImplOf_of_readItem`: a method is read as an impl block with its own body.
* `ForeignWrap.Method.callsWith_of_isImplOf`: that body calls the foreign function with its
  arguments.
-/

namespace ForeignWrap

open Code (Token word op braces brackets parens separated)
open Syntax (Grammar IsStmt IsWhole IsImplOf isName nameExpr fnContent)
open Syntax.Parser (AtListEnd Reads ReadsEach)

namespace Method

/-- The head of a method is made of whole types and a name, and its body begins as no attribute. -/
structure HeadIsWhole (m : Method) : Prop where
  self : IsWhole m.selfType
  result : IsWhole m.result
  name : isName m.name = true
  body : Syntax.atOp "#" m.body.code = false

theorem isWhole_of_typeAs_eq_ok {part : Directive.Part} {text : String}
    {type : Syntax.Written .type} (h : Call.typeAs part text = .ok type) : IsWhole type.tokens :=
  Syntax.isWhole_of_typeOf_eq_ok (mapError_eq_ok_iff.1 h)

/-- The first step gives the receiver its name. -/
theorem exists_eq_nameReceiver_cons {config : Config} {function : String} {args : List Call.Arg}
    {receiver : Directive.HostArg} {name : String} {hosts : List (Directive.HostArg × String)}
    {ss : List Step} (h : steps config function args receiver name hosts = .ok ss) :
    ∃ more, ss = .nameReceiver name :: more := by
  obtain ⟨sequence, element, handleType, -, -, rfl⟩ | ⟨-, rfl⟩ := steps_cases h
  · exact ⟨_, rfl⟩
  · exact ⟨_, rfl⟩

theorem headIsWhole_of_ofDirective_eq_ok {config : Config} {d : Directive} {docs : List Doc}
    {m : Method} (h : ofDirective config d docs = .ok m) : m.HeadIsWhole := by
  obtain ⟨w⟩ := nonempty_wrapped h
  refine ⟨?_, ?_, Call.isName_of_identifier_eq_ok w.name_eq, ?_⟩
  · rw [w.selfType_tokens]
    exact isWhole_of_typeAs_eq_ok w.selfType_eq
  · rw [w.result_tokens]
    exact isWhole_of_typeAs_eq_ok w.result_eq
  · obtain ⟨more, hsteps⟩ := exists_eq_nameReceiver_cons w.steps_eq
    rw [w.body_eq, hsteps]
    rfl

theorem headIsWhole_of_notEqual_eq_ok {config : Config} {m : Method}
    (h : notEqual config = .ok m) : m.HeadIsWhole := by
  simp only [notEqual, bind_eq_ok_iff] at h
  obtain ⟨selfType, hself, boolType, hbool, exprType, -, h⟩ := h
  cases h
  exact ⟨isWhole_of_typeAs_eq_ok hself, isWhole_of_typeAs_eq_ok hbool,
    show isName "ne" = true by decide, rfl⟩

/-- A method as an item: an impl block of one function. -/
theorem exists_code_eq (m : Method) :
    ∃ contents params, m.code = .word "impl" :: (m.selfType ++
      [.group .brace (fnContent contents m.name params m.result m.body.code)]) := by
  have hdocs : ∀ docs : List Doc, ∃ contents : List (List Token),
      docs.flatMap (·.code) = contents.flatMap (op "#" ++ brackets ·) := by
    intro docs
    induction docs with
    | nil => exact ⟨[], rfl⟩
    | cons doc docs ih =>
      obtain ⟨contents, hcontents⟩ := ih
      obtain ⟨content, hcontent⟩ : ∃ content, doc.code = op "#" ++ brackets content := ⟨_, rfl⟩
      exact ⟨content :: contents, by rw [List.flatMap_cons, List.flatMap_cons, hcontent, hcontents]⟩
  obtain ⟨contents, hcontents⟩ := hdocs m.docs
  refine ⟨contents, separated (op ",") (referenceCode (word "self") :: m.params.map (·.code)), ?_⟩
  simp only [Method.code, hcontents, signatureCode, callCode, fnContent, Syntax.fnCode,
    List.append_assoc]
  rfl

/-- A method is read as an impl block with its own body, whatever its types are. -/
theorem isImplOf_of_readItem {depth : Nat} {m : Method} (hm : m.HeadIsWhole)
    {input final : Syntax.Input} {rest : List Token} {item : Syntax.Item}
    (hrest : input.rest = m.code ++ rest)
    (h : (Grammar.atDepth (depth + 1)).readItem input = .ok (item, final)) :
    final.rest = rest ∧ IsImplOf (Grammar.atDepth depth) m.body.code item := by
  obtain ⟨contents, params, hcode⟩ := m.exists_code_eq
  rw [hcode, List.cons_append, List.append_assoc] at hrest
  exact Syntax.isImplOf_of_readItem hm.name hm.self hm.result hm.body hrest h

/-- A body calls the foreign function in the first statement that does, if what comes before only
gives names. -/
theorem calls_of_isImplOf {config : Config} {receiver : Directive.HostArg}
    {name function : String} {given : CallArgs} {args : List Syntax.Expr} {steps : List Step}
    {answer : Answer} {depth : Nat} {item : Syntax.Item} (hname : isName name = true)
    (hcall : IsStmt (Code.sizeOf (Step.call function given).code) (Step.call function given).code
      (foreignCall function args))
    (hdepth : Code.sizeOf (Body.wrap (contextSteps config receiver name ++
      .call function given :: steps) answer).code + 3 ≤ depth)
    (hitem : IsImplOf (Grammar.atDepth depth) (Body.wrap (contextSteps config receiver name ++
      .call function given :: steps) answer).code item) : Calls function args item := by
  obtain ⟨more, hcode⟩ : ∃ more, (Body.wrap (contextSteps config receiver name ++
      .call function given :: steps) answer).code =
        ((contextSteps config receiver name).map (·.code) ++
          [(Step.call function given).code]).flatten ++ more :=
    ⟨_, by simp [List.flatMap, List.append_assoc]; rfl⟩
  obtain @⟨attrs, inner, generics, type, signature, stmts, start, last, hstart, hstmts⟩ := hitem
  have hsteps : ∀ step ∈ contextSteps config receiver name,
      ∃ s, IsStmt 2 step.code s ∧ s.HasLayout ∧ ¬ IsForeignCall s :=
    fun _ => exists_isStmt_contextStep hname
  obtain ⟨before, hbefore⟩ := exists_forall₂ hsteps
  obtain _ | depth := depth
  · cases hdepth
  have hsize : Code.sizeOf (Step.call function given).code + 1 ≤ depth := by
    rw [hcode] at hdepth
    simp only [List.flatten_append, Code.sizeOf_append, List.flatten_singleton] at hdepth
    omega
  have hcodes : List.Forall₂ (fun code stmt => code ≠ [] ∧ ∀ rest,
      Reads (Grammar.atDepth depth).stmtOrEmpty (code ++ rest) stmt rest)
      ((contextSteps config receiver name).map (·.code) ++ [(Step.call function given).code])
      (before ++ [foreignCall function args]) := by
    refine List.rel_append ?_ (.cons ⟨hcall.1, hcall.2 depth (by omega)⟩ .nil)
    rw [List.forall₂_map_left_iff]
    exact hbefore.imp fun step stmt h => ⟨h.1.1, h.1.2 depth (by omega)⟩
  have hstmts : Syntax.Parser.untilEnd (Grammar.atDepth depth).stmtOrEmpty start =
      .ok (stmts, last) := by
    rw [← Grammar.readStmts_eq_untilEnd]
    exact hstmts
  obtain ⟨after, rfl⟩ := Syntax.exists_of_untilEnd_append hcodes (hstart.trans hcode) hstmts
  rw [List.append_assoc]
  exact .method (forall_mem_of_forall₂ hbefore.flip fun _ _ h => h.2.2)

/-- The body of a method without a sequence calls the foreign function with its arguments. -/
theorem callsWith_of_isImplOf {config : Config} {d : Directive} {docs : List Doc} {m : Method}
    {line : String} {depth : Nat} {item : Syntax.Item}
    (hline : Directive.ofLine config line = .ok d) (hsingle : d.variadic = false)
    (hstands : ∀ foreign ∈ d.foreignArgs, Call.Stands foreign)
    (hm : ofDirective config d docs = .ok m) (hdepth : Code.sizeOf m.body.code + 3 ≤ depth)
    (hitem : IsImplOf (Grammar.atDepth depth) m.body.code item) : CallsWith config d item := by
  obtain ⟨w⟩ := nonempty_wrapped hm
  have hsteps := w.steps_eq
  rw [steps_eq_of_variadic?_eq_none
    (Call.variadic?_eq_none_of_ofLine hline hsingle w.args_eq)] at hsteps
  obtain ⟨es, hes, hcall⟩ := exists_isStmt_call hstands w.args_eq w.function_eq
  rw [w.body_eq, ← Except.ok.inj hsteps] at hdepth hitem
  exact ⟨w.function, es, w.function_eq, hes,
    calls_of_isImplOf (Call.isName_of_identifier_eq_ok w.receiverName_eq) hcall hdepth hitem⟩

end Method

end ForeignWrap
