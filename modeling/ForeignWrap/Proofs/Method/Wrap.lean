import ForeignWrap.Method.Wrap
import ForeignWrap.Proofs.Call
import ForeignWrap.Proofs.Directive.Grammar

/-!
# What goes into the method for a directive

The method for a directive is there when the call is bound and each name and type of the directive
is code. What was read on the way is kept here with the method, so that what holds of all methods is
proved from it, and not by following the reading again.

## Main definitions

* `ForeignWrap.Method.steps_cases`: the steps of a method with a sequence, and of one without.
* `ForeignWrap.Method.Wrapped`: a method with what was read for it.
* `ForeignWrap.Method.nonempty_wrapped`: each method that a directive asks for comes with it.
-/

namespace ForeignWrap

variable {config : Config} {d : Directive} {line : String} {docs : List Doc}

/-! ## Calls of lines -/

namespace Call

variable {args : List Arg}

theorem isSome_variadic?_of_ofLine (hline : Directive.ofLine config line = .ok d)
    (hargs : bind config d = .ok args) : (variadic? args).isSome = d.variadic := by
  obtain ⟨hvalid, hvariadic⟩ := Directive.valid_of_ofLine_eq_ok hline
  rw [hvariadic, isSome_variadic?_eq hvalid hargs]

theorem variadic?_eq_none_of_ofLine (hline : Directive.ofLine config line = .ok d)
    (hsingle : d.variadic = false) (hargs : bind config d = .ok args) : variadic? args = none := by
  rw [← Option.not_isSome_iff_eq_none, isSome_variadic?_of_ofLine hline hargs, hsingle]
  exact Bool.false_ne_true

end Call

/-! ## Methods -/

namespace Method

open Call (identifier typeAs)
open Directive (HostArg)

variable {m : Method}

/-- The steps of a method make an array of the arguments of its call if the last one is a sequence.
Otherwise the call is given each of them. -/
theorem steps_cases {function receiverName : String} {args : List Call.Arg} {receiver : HostArg}
    {hosts : List (HostArg × String)} {ss : List Step}
    (h : steps config function args receiver receiverName hosts = .ok ss) :
    (∃ sequence element handleType, sequence? args = some (sequence, element) ∧
      typeAs .handleType config.handleType = .ok handleType ∧
      ss = contextSteps config receiver receiverName ++
        arraySteps handleType.tokens (Call.fixed args) sequence element ++
        [.call function .array, .keepArrayAlive]) ∨
    (sequence? args = none ∧
      ss = contextSteps config receiver receiverName ++ .call function (.each args) ::
        (hosts.filter fun (arg, _) => isRetained config args arg).map
          fun (_, name) => .keepAlive name) := by
  unfold steps at h
  split at h
  case h_1 sequence element hsequence =>
    obtain ⟨handleType, htype, h⟩ := bind_eq_ok_iff.1 h
    exact .inl ⟨sequence, element, handleType, hsequence, htype, (Except.ok.inj h).symm⟩
  case h_2 hsingle => exact .inr ⟨hsingle, (Except.ok.inj h).symm⟩

/-- A method for a directive, and what was read for it. -/
structure Wrapped (config : Config) (d : Directive) (docs : List Doc) (m : Method) where
  args : List Call.Arg
  receiver : HostArg
  receiverName : String
  selfType : Syntax.Written .type
  result : Syntax.Written .type
  function : String
  steps : List Step
  args_eq : Call.bind config d = .ok args
  hosts_eq : d.hostArgs = receiver :: d.params
  receiverName_eq : identifier receiver.name = .ok receiverName
  selfType_eq : typeAs .receiverType (withoutReference receiver.type) = .ok selfType
  name_eq : identifier d.name = .ok m.name
  params_eq : d.params.mapM (paramOf args) = .ok m.params
  result_eq : typeAs .resultType d.result = .ok result
  function_eq : identifier d.foreignFunction = .ok function
  steps_eq : Method.steps config function args receiver receiverName
    ((receiver, receiverName) :: d.params.zip (m.params.map (·.name))) = .ok steps
  method_eq : m = ⟨selfType.tokens, docs, m.name, m.params, result.tokens,
    .wrap steps (answerOf config d.result result)⟩

theorem nonempty_wrapped (h : ofDirective config d docs = .ok m) :
    Nonempty (Wrapped config d docs m) := by
  obtain ⟨args, hargs, h⟩ := bind_eq_ok_iff.1 h
  cases hreceiver : d.receiver? with
  | none =>
    rw [hreceiver] at h
    cases h
  | some receiver =>
    rw [hreceiver] at h
    simp only [ofCall, bind_eq_ok_iff] at h
    obtain ⟨selfType, hself, name, hname, result, hresult, receiverName, hreceiverName, params,
      hparams, function, hfunction, steps, hsteps, h⟩ := h
    cases h
    exact ⟨args, receiver, receiverName, selfType, result, function, steps, hargs,
      List.eq_cons_of_mem_head? hreceiver, hreceiverName, hself, hname, hparams, hresult, hfunction,
      hsteps, rfl⟩

theorem identifier_of_paramOf_eq_ok {args : List Call.Arg} {host : HostArg} {param : Param}
    (h : paramOf args host = .ok param) : identifier host.name = .ok param.name := by
  simp only [paramOf, bind_eq_ok_iff] at h
  obtain ⟨name, hname, type, -, hparam⟩ := h
  cases hparam
  exact hname

namespace Wrapped

variable (w : Wrapped config d docs m)

include w

theorem receiver?_eq : d.receiver? = some w.receiver := by
  rw [Directive.receiver?, w.hosts_eq]
  rfl

theorem body_eq : m.body = .wrap w.steps (answerOf config d.result w.result) :=
  congrArg Method.body w.method_eq

theorem selfType_tokens : m.selfType = w.selfType.tokens :=
  congrArg Method.selfType w.method_eq

theorem result_tokens : m.result = w.result.tokens :=
  congrArg Method.result w.method_eq

theorem forall₂_params :
    List.Forall₂ (fun host param => paramOf w.args host = .ok param) d.params m.params :=
  mapM_eq_ok_iff.1 w.params_eq

/-- The receiver and the arguments of the method have the names that the directive gives them. -/
theorem forall₂_names : List.Forall₂ (fun host name => identifier host.name = .ok name) d.hostArgs
    (w.receiverName :: m.params.map (·.name)) := by
  rw [w.hosts_eq]
  refine .cons w.receiverName_eq (List.forall₂_map_right_iff.2 ?_)
  exact w.forall₂_params.imp fun _ _ => identifier_of_paramOf_eq_ok

end Wrapped

/-! ## The method of a line -/

/-- A line asks for the method of the directive that it says. -/
theorem ofDirective_eq_ok_of_ofLine (hline : Directive.ofLine config line = .ok d)
    (h : ofLine config line docs = .ok m) : ofDirective config d docs = .ok m := by
  obtain ⟨d', hline', h⟩ := bind_eq_ok_iff.1 h
  cases hline.symm.trans hline'
  exact h

/-- A line has a method if the directive that it says is seen to have one. -/
theorem exists_ofLine_eq_ok (hline : Directive.ofLine config line = .ok d) (docs : List Doc)
    (h : (ofDirective config d docs).toBool = true) :
    ∃ m, ofLine config line docs = .ok m ∧ ofDirective config d docs = .ok m := by
  obtain ⟨m, hm⟩ := exists_eq_ok_of_toBool h
  exact ⟨m, bind_eq_ok_iff.2 ⟨d, hline, hm⟩, hm⟩

end Method

end ForeignWrap
