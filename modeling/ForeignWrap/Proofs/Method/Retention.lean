import ForeignWrap.Proofs.Method.Failure
import ForeignWrap.Proofs.Method.Routine
import ForeignWrap.Proofs.Text.Cut

/-!
# Which arguments a method keeps alive, and how it takes them

The head of a method, its call and the statements after the call each look at an argument on their
own. They agree: what is kept alive is the receiver or is taken by reference, and whatever has its
handle read in the call is kept alive, unless it is a plain value, a context, or cast as well.

## Main definitions

* `ForeignWrap.Method.CastsHost`: what the call of a directive casts.
* `ForeignWrap.Method.ByValue`, `ForeignWrap.Method.NeedsKeeping`: the rules for one argument.
* `ForeignWrap.Method.Takes`: the type that an argument is declared with.
* `ForeignWrap.Method.TakesAndKeeps`: what the rules say of a method.
* `ForeignWrap.Method.takesAndKeeps_of_ofDirective_eq_ok`: methods without a sequence follow them.
-/

namespace ForeignWrap

/-! ## Types that are references -/

namespace Code

theorem tokens?_reference (inside : Option Delimiter) (cs : List Char) :
    tokens? (cs.length + 2) inside ('&' :: cs) = do
      let (more, after) ← tokens? (cs.length + 1) inside cs
      return (.sign '&' (atSign cs) :: more, after) :=
  rfl

theorem exists_sign_of_lex_reference {text rest : String} {tokens : List Token}
    (htext : text = "&" ++ rest) (h : lex text = some tokens) :
    ∃ joint more, tokens = .sign '&' joint :: more := by
  have hchars : text.toList = '&' :: rest.toList := by rw [htext, String.toList_append]; rfl
  have hlex : (tokens? (rest.toList.length + 2) none ('&' :: rest.toList)).map Prod.fst =
      some tokens := by
    rw [← h, lex, hchars]
    rfl
  rw [tokens?_reference, Option.map_eq_some_iff] at hlex
  obtain ⟨⟨_, after⟩, hlex, rfl⟩ := hlex
  obtain ⟨⟨more, after'⟩, -, hlex⟩ := Option.bind_eq_some_iff.1 hlex
  cases hlex
  exact ⟨_, _, rfl⟩

end Code

namespace Syntax

open Code (Token)

/-- A type that is a reference, whatever it refers to. -/
def Written.IsReference (w : Written .type) : Prop :=
  ∃ lifetime mutable elem, w.tree = .referenceType lifetime mutable elem

/-- A type with a reference before it. -/
def Written.referenced (w : Written .type) : Written .type :=
  ⟨.referenceType none false w.tree, Code.op "&" ++ w.tokens⟩

theorem Written.isReference_referenced (w : Written .type) : w.referenced.IsReference :=
  ⟨none, false, w.tree, rfl⟩

/-- After the sign of a reference, whatever is read as a type is one. -/
theorem readType_reference (g : Grammar) (plus joint : Bool) (more : List Token) :
    g.readType plus { rest := .sign '&' joint :: more } =
      (do
        let lifetime ← Parser.lifetime?
        let mutable ← Parser.keyword? "mut"
        return .referenceType lifetime mutable (← g.type false) : Parser Ty)
          { rest := more, taken := Code.op "&" } :=
  rfl

theorem exists_referenceType_of_readType {g : Grammar} {plus joint : Bool} {more : List Token}
    {type : Ty} {input : Input}
    (h : g.readType plus { rest := .sign '&' joint :: more } = .ok (type, input)) :
    ∃ lifetime mutable elem, type = .referenceType lifetime mutable elem := by
  rw [readType_reference] at h
  obtain ⟨⟨lifetime, _⟩, -, h⟩ := bind_eq_ok_iff.1 h
  obtain ⟨⟨mutable, _⟩, -, h⟩ := bind_eq_ok_iff.1 h
  obtain ⟨⟨elem, _⟩, -, h⟩ := bind_eq_ok_iff.1 h
  cases h
  exact ⟨lifetime, mutable, elem, rfl⟩

/-- What a reader answers on a whole list of tokens is what it answers at the start of them. -/
theorem exists_input_of_run_eq_ok {α : Type} {p : Parser α} {tokens taken : List Token} {a : α}
    (h : Parser.run p tokens = .ok (a, taken)) :
    ∃ input, p { rest := tokens } = .ok (a, input) := by
  obtain ⟨⟨a', input⟩, hp, h⟩ := bind_eq_ok_iff.1 h
  refine ⟨input, ?_⟩
  cases hleft : input.leftover with
  | some delimiter =>
    simp only [hleft] at h
    cases h
  | none =>
    simp only [hleft] at h
    cases hrest : input.rest.isEmpty with
    | true =>
      simp only [hrest] at h
      cases h
      exact hp
    | false =>
      simp only [hrest] at h
      cases h

/-- A type whose text begins as a reference is one. -/
theorem isReference_of_typeOf_eq_ok {text rest : String} {written : Written .type}
    (htext : text = "&" ++ rest) (h : typeOf text = .ok written) : written.IsReference := by
  obtain ⟨tokens, htokens, h⟩ := bind_eq_ok_iff.1 h
  obtain ⟨⟨type, taken⟩, hrun, h⟩ := bind_eq_ok_iff.1 h
  cases h
  have hlex : Code.lex text = some tokens := by
    unfold tokensOf at htokens
    split at htokens
    · cases htokens
      assumption
    · cases htokens
  obtain ⟨joint, more, rfl⟩ := Code.exists_sign_of_lex_reference htext hlex
  obtain ⟨input, hread⟩ := exists_input_of_run_eq_ok hrun
  exact exists_referenceType_of_readType hread

end Syntax

/-! ## Casts -/

namespace Directive

/-- Whether an argument of the call reads the host argument `name` through a cast. -/
def ForeignArg.casts (name : String) : ForeignArg → Bool
  | .reference text (some _) => (splitMarker text).1 = name
  | _ => false

theorem ForeignArg.casts_iff {name : String} {foreign : ForeignArg} :
    foreign.casts name = true ↔
      ∃ text type marked, foreign = .reference text (some type) ∧ Marked text name marked := by
  cases foreign with
  | literal code => simp [casts]
  | reference text cast =>
    cases cast with
    | none => simp [casts]
    | some type =>
      simp only [casts, decide_eq_true_eq, ForeignArg.reference.injEq, Option.some.injEq,
        ← splitMarker_eq_iff, Prod.ext_iff]
      constructor
      · intro h
        exact ⟨text, type, _, ⟨rfl, rfl⟩, h, rfl⟩
      · rintro ⟨_, _, _, ⟨rfl, rfl⟩, h, -⟩
        exact h

end Directive

namespace Call

open Directive (ForeignArg HostArg)

variable {config : Config} {d : Directive} {args : List Arg}

/-- An argument of the call is bound to a cast of what it casts. -/
theorem Binds.casts_eq (hplain : ∀ host ∈ d.hostArgs, identifier host.name = .ok host.name)
    {foreign : ForeignArg} {arg : Arg} (h : Binds config d foreign arg) (name : String) :
    arg.casts name = foreign.casts name := by
  cases h with
  | literal _ => rfl
  | @read text hostName cast host access hplace hname haccess hidentifier =>
    have hsame : hostName = (Directive.splitMarker text).1 := by
      rw [hplain host (List.mem_of_getElem? hplace), hname] at hidentifier
      exact (Except.ok.inj hidentifier).symm
    cases cast with
    | some type =>
      obtain ⟨written, -, rfl⟩ := map_eq_ok_iff.1 haccess
      simp only [Arg.casts, ForeignArg.casts, hsame]
    | none =>
      obtain rfl : (if config.isExpr host.type then .unwrap else .handle) = access :=
        Except.ok.inj haccess
      cases config.isExpr host.type <;> rfl

theorem isCast_eq (hplain : ∀ host ∈ d.hostArgs, identifier host.name = .ok host.name)
    (hbind : bind config d = .ok args) (name : String) :
    isCast args name = d.foreignArgs.any (·.casts name) := by
  have hcasts : List.Forall₂ (fun foreign arg => foreign.casts name = arg.casts name)
      d.foreignArgs args :=
    (binds_of_bind_eq_ok hbind).imp fun _ _ h => (h.casts_eq hplain name).symm
  rw [isCast]
  clear hbind
  generalize d.foreignArgs = foreignArgs at hcasts
  induction hcasts with
  | nil => rfl
  | cons h _ ih => rw [List.any_cons, List.any_cons, h, ih]

end Call

namespace Method

open Code (Token op word)
open Directive (ForeignArg HostArg Marked)
open Call (identifier typeAs)

variable {config : Config} {d : Directive} {args : List Call.Arg}

/-! ## The rules -/

/-- Some argument of the call names the host argument `name` together with a cast. -/
def CastsHost (d : Directive) (name : String) : Prop :=
  ∃ text type marked, ForeignArg.reference text (some type) ∈ d.foreignArgs ∧
    Marked text name marked

theorem any_casts_iff {name : String} :
    d.foreignArgs.any (·.casts name) = true ↔ CastsHost d name := by
  simp only [List.any_eq_true, ForeignArg.casts_iff]
  constructor
  · rintro ⟨_, hmem, text, type, marked, rfl, hmarked⟩
    exact ⟨text, type, marked, hmem, hmarked⟩
  · rintro ⟨text, type, marked, hmem, hmarked⟩
    exact ⟨_, hmem, text, type, marked, rfl, hmarked⟩

instance (d : Directive) (name : String) : Decidable (CastsHost d name) :=
  decidable_of_iff _ any_casts_iff

/-- The arguments that are taken with their own types: plain values, what the call casts, and what
is a reference by itself. -/
def ByValue (d : Directive) (host : HostArg) : Prop :=
  isPrimitive host.type = true ∨ CastsHost d host.name ∨ ∃ rest, host.type = "&" ++ rest

/-- The arguments that are kept alive: all but plain values, contexts, and what the call casts. -/
def NeedsKeeping (config : Config) (d : Directive) (host : HostArg) : Prop :=
  isPrimitive host.type = false ∧ config.isContext host.type = false ∧ ¬ CastsHost d host.name

instance (config : Config) (d : Directive) : DecidablePred (NeedsKeeping config d) :=
  fun _ => inferInstanceAs (Decidable (_ ∧ _ ∧ ¬ _))

/-- The names of what is kept alive, in the order of the arguments. -/
def keptNames (config : Config) (d : Directive) : List String :=
  (d.hostArgs.filter (NeedsKeeping config d ·)).map (·.name)

/-- The type that a host argument is declared with: its own, or a reference to it. -/
inductive Takes (d : Directive) (host : HostArg) : Syntax.Written .type → Prop where
  | byValue {written : Syntax.Written .type} :
      Syntax.typeOf host.type = .ok written → ByValue d host → Takes d host written
  | byReference {written : Syntax.Written .type} :
      Syntax.typeOf host.type = .ok written → ¬ ByValue d host →
      Takes d host written.referenced

/-- A host argument as it is declared, under its own name. -/
def Declares (d : Directive) (host : HostArg) (code : List Token) : Prop :=
  ∃ type, Takes d host type ∧ code = word host.name ++ op ":" ++ type.tokens

/-- The head, the call and what is kept alive, of a method whose call has the arguments `args`.
Names are compared as they are written. Whether a variable of the body, such as `ast` or `ctx`,
hides an argument of its name is not asked here: `hygienic_iff_namesClear` says when it does. -/
structure TakesAndKeeps (config : Config) (d : Directive) (args : List Call.Arg) (m : Method) :
    Prop where
  /-- The head declares each argument after the receiver, in order. -/
  head : ∃ declared, List.Forall₂ (Declares d) d.params declared ∧
    m.signatureCode = word "pub" ++ word "fn" ++
      callCode (word m.name) (referenceCode (word "self") :: declared) ++ op "->" ++ m.result
  /-- Arguments are kept alive after the call of the foreign function and not before it. -/
  body : ∃ start function answer, identifier d.foreignFunction = .ok function ∧
    m.body = .wrap (start ++ .call function (.each args) ::
      (keptNames config d).map .keepAlive) answer ∧
    (∀ name, .keepAlive name ∉ start) ∧
    m.body.code = start.flatMap (·.code) ++ (Step.call function (.each args)).code ++
      (keptNames config d).flatMap
        (fun name => callCode (word "keep_alive") [word name] ++ op ";") ++
      answer.code
  kept_once : (keptNames config d).Nodup
  /-- What is kept alive is the receiver, or its declared type is a reference. -/
  kept_by_reference : ∀ host ∈ d.hostArgs, host.name ∈ keptNames config d →
    d.receiver? = some host ∨ host ∈ d.params ∧ ∃ type, Takes d host type ∧ type.IsReference
  /-- What has its handle read in the call is kept alive, unless another rule is about it. -/
  handles_kept : ∀ name access variadic, .read name access variadic ∈ args →
    access = .unwrap ∨ access = .handle →
    ∃ host ∈ d.hostArgs, host.name = name ∧
      (isPrimitive host.type = false → config.isContext host.type = false →
        ¬ CastsHost d host.name → host.name ∈ keptNames config d)

/-! ## The head -/

theorem passingOf_eq (hcast : ∀ name, Call.isCast args name = true ↔ CastsHost d name)
    {host : HostArg} (hsingle : host.variadic = false) [Decidable (ByValue d host)] :
    passingOf args host = if ByValue d host then .byValue else .byReference := by
  have hvalue : (isPrimitive host.type || Call.isCast args host.name ||
      Text.beginsWith "&" host.type) = true ↔ ByValue d host := by
    simp only [Bool.or_eq_true, hcast, Text.beginsWith_iff, ByValue, or_assoc]
  simp only [passingOf, hsingle, hvalue]
  rfl

theorem declares_of_paramOf_eq_ok
    (hcast : ∀ name, Call.isCast args name = true ↔ CastsHost d name) {host : HostArg}
    (hplain : identifier host.name = .ok host.name) (hsingle : host.variadic = false)
    {param : Param} (h : paramOf args host = .ok param) : Declares d host param.code := by
  classical
  obtain ⟨name, hname, h⟩ := bind_eq_ok_iff.1 h
  obtain ⟨written, htype, h⟩ := bind_eq_ok_iff.1 h
  cases h
  obtain rfl : host.name = name := Except.ok.inj (hplain.symm.trans hname)
  have hwritten : Syntax.typeOf host.type = .ok written := mapError_eq_ok_iff.1 htype
  by_cases hvalue : ByValue d host
  · refine ⟨written, .byValue hwritten hvalue, ?_⟩
    simp only [Param.code, passingOf_eq hcast hsingle, if_pos hvalue]
  · refine ⟨written.referenced, .byReference hwritten hvalue, ?_⟩
    simp only [Param.code, passingOf_eq hcast hsingle, if_neg hvalue]
    rfl

/-! ## What is kept alive -/

theorem needsKeeping_of_mem_keptNames (hvalid : Directive.Valid d) {host : HostArg}
    (hhost : host ∈ d.hostArgs) (h : host.name ∈ keptNames config d) :
    NeedsKeeping config d host := by
  obtain ⟨other, hother, hname⟩ := List.mem_map.1 h
  obtain ⟨hmem, hkept⟩ := List.mem_filter.1 hother
  obtain rfl := List.inj_on_of_nodup_map hvalid.names_nodup hmem hhost hname
  exact of_decide_eq_true hkept

theorem mem_keptNames {host : HostArg} (hhost : host ∈ d.hostArgs)
    (h : NeedsKeeping config d host) : host.name ∈ keptNames config d :=
  List.mem_map_of_mem (List.mem_filter.2 ⟨hhost, decide_eq_true h⟩)

theorem nodup_keptNames (hvalid : Directive.Valid d) : (keptNames config d).Nodup :=
  hvalid.names_nodup.sublist (List.filter_sublist.map _)

/-- What is kept alive is not taken by value, but for what is a reference by itself. -/
theorem exists_isReference_of_needsKeeping {host : HostArg} {code : List Token}
    (h : NeedsKeeping config d host) (hdeclares : Declares d host code) :
    ∃ type, Takes d host type ∧ type.IsReference := by
  obtain ⟨type, htakes, -⟩ := hdeclares
  refine ⟨type, htakes, ?_⟩
  cases htakes with
  | byReference _ _ => exact Syntax.Written.isReference_referenced _
  | byValue hwritten hvalue =>
    obtain hprimitive | hcast | ⟨rest, hrest⟩ := hvalue
    · rw [h.1] at hprimitive
      cases hprimitive
    · exact absurd hcast h.2.2
    · exact Syntax.isReference_of_typeOf_eq_ok hrest hwritten

/-- The statements that keep arguments alive are those for the names of what is kept. -/
theorem map_keepAlive_eq (hcast : ∀ name, Call.isCast args name = true ↔ CastsHost d name) :
    ((d.hostArgs.map fun host => (host, host.name)).filter fun (host, _) =>
        isRetained config args host).map (fun (_, name) => Step.keepAlive name) =
      (keptNames config d).map .keepAlive := by
  have hretained : ∀ host, isRetained config args host = decide (NeedsKeeping config d host) := by
    intro host
    rw [Bool.eq_iff_iff, decide_eq_true_iff]
    simp only [isRetained, NeedsKeeping, Bool.and_eq_true, Bool.not_eq_true',
      ← Bool.not_eq_true (Call.isCast _ _), hcast, and_assoc]
  rw [keptNames, List.filter_map, List.map_map, List.map_map]
  refine congrArg _ (List.filter_congr fun host _ => hretained host)

theorem keepAlive_notMem_contextSteps (receiver : HostArg) (receiverName name : String) :
    .keepAlive name ∉ contextSteps config receiver receiverName := by
  unfold contextSteps
  split_ifs <;> simp

/-! ## Methods -/

/-- The code of a body that keeps some names alive at its end. -/
theorem code_wrap_keepAlive (start : List Step) (call : Step) (names : List String)
    (answer : Answer) :
    (Body.wrap (start ++ call :: names.map .keepAlive) answer).code =
      start.flatMap (·.code) ++ call.code ++
        names.flatMap (fun name => callCode (word "keep_alive") [word name] ++ op ";") ++
        answer.code := by
  simp only [Body.code, List.flatMap_append, List.flatMap_cons, List.flatMap_map,
    List.append_assoc]
  rfl

theorem steps_eq_of_variadic?_eq_none (hnone : Call.variadic? args = none) (function : String)
    (receiver : HostArg) (receiverName : String) (hosts : List (HostArg × String)) :
    steps config function args receiver receiverName hosts =
      .ok (contextSteps config receiver receiverName ++ .call function (.each args) ::
        (hosts.filter fun (arg, _) => isRetained config args arg).map
          fun (_, name) => .keepAlive name) := by
  unfold steps sequence?
  rw [hnone]
  rfl

/-- Where names are code as they are, the arguments of a method have the names of the directive. -/
theorem zip_names_eq {hosts : List HostArg} {params : List Param}
    (hplain : ∀ host ∈ hosts, identifier host.name = .ok host.name)
    (hparams : List.Forall₂ (fun host param => paramOf args host = .ok param) hosts params) :
    hosts.zip (params.map (·.name)) = hosts.map fun host => (host, host.name) := by
  induction hparams with
  | nil => rfl
  | @cons host param hosts params hparam _ ih =>
    obtain ⟨hhost, hhosts⟩ := List.forall_mem_cons.1 hplain
    have hname : param.name = host.name :=
      Except.ok.inj ((identifier_of_paramOf_eq_ok hparam).symm.trans hhost)
    rw [List.map_cons, List.zip_cons_cons, List.map_cons, hname, ih hhosts]

/-- What reads an argument of the method is about a host argument of its name. -/
theorem exists_host_of_read_mem (hplain : ∀ host ∈ d.hostArgs, identifier host.name = .ok host.name)
    (hbind : Call.bind config d = .ok args) {name : String} {access : Call.Access}
    {variadic : Bool} (h : .read name access variadic ∈ args) :
    ∃ host ∈ d.hostArgs, host.name = name := by
  have hall : ∀ arg ∈ args, ∀ name access variadic, arg = .read name access variadic →
      ∃ host ∈ d.hostArgs, host.name = name := by
    refine forall_mem_of_forall₂ (Call.binds_of_bind_eq_ok hbind).flip ?_
    rintro _ foreign hbinds name access variadic rfl
    obtain ⟨host, hhost, hidentifier, -⟩ := Call.exists_identifier_of_binds_read hbinds
    exact ⟨host, hhost, Except.ok.inj ((hplain host hhost).symm.trans hidentifier)⟩
  exact hall _ h name access variadic rfl

/-- Only the last argument of a directive can be a sequence. -/
theorem variadic_eq_false_of_mem (hvalid : Directive.Valid d)
    (hbare : Directive.endsWithSequence d = false) {host : HostArg} (hhost : host ∈ d.hostArgs) :
    host.variadic = false := by
  by_contra hsequence
  have hends := (Directive.endsWithSequence_iff hvalid).2 ⟨host, hhost, by simpa using hsequence⟩
  rw [hbare] at hends
  cases hends

/-- The method for a call without a sequence: the context, the call of the foreign function, and
what is kept alive. -/
theorem Wrapped.body_eq_of_single {docs : List Doc} {m : Method} (w : Wrapped config d docs m)
    (hplain : ∀ host ∈ d.hostArgs, identifier host.name = .ok host.name)
    (hcast : ∀ name, Call.isCast w.args name = true ↔ CastsHost d name)
    (hnone : Call.variadic? w.args = none) :
    m.body = .wrap (contextSteps config w.receiver w.receiver.name ++
      .call w.function (.each w.args) :: (keptNames config d).map .keepAlive)
        (answerOf config d.result w.result) := by
  rw [w.hosts_eq, List.forall_mem_cons] at hplain
  obtain ⟨hreceiver, hplain⟩ := hplain
  have hname : w.receiverName = w.receiver.name :=
    Except.ok.inj (w.receiverName_eq.symm.trans hreceiver)
  have hnames : (w.receiver, w.receiver.name) :: d.params.zip (m.params.map (·.name)) =
      d.hostArgs.map fun host => (host, host.name) := by
    rw [zip_names_eq hplain w.forall₂_params, w.hosts_eq, List.map_cons]
  have hsteps := w.steps_eq
  rw [hname, hnames, steps_eq_of_variadic?_eq_none hnone, map_keepAlive_eq hcast] at hsteps
  rw [w.body_eq, ← Except.ok.inj hsteps]

/-- The head declares each argument after the receiver as the rules say. -/
theorem forall₂_declares (hcast : ∀ name, Call.isCast args name = true ↔ CastsHost d name)
    {hosts : List HostArg} {params : List Param}
    (hplain : ∀ host ∈ hosts, identifier host.name = .ok host.name)
    (hsingle : ∀ host ∈ hosts, host.variadic = false)
    (hparams : List.Forall₂ (fun host param => paramOf args host = .ok param) hosts params) :
    List.Forall₂ (Declares d) hosts (params.map (·.code)) := by
  rw [List.forall₂_map_right_iff]
  induction hparams with
  | nil => exact .nil
  | @cons host param hosts params hparam _ ih =>
    obtain ⟨hhost, hhosts⟩ := List.forall_mem_cons.1 hplain
    obtain ⟨hhost', hhosts'⟩ := List.forall_mem_cons.1 hsingle
    exact .cons (declares_of_paramOf_eq_ok hcast hhost hhost' hparam) (ih hhosts hhosts')

/-- What is kept alive is the receiver, or the head declares it as a reference. -/
theorem receiver_or_isReference_of_kept (hvalid : Directive.Valid d) {receiver : HostArg}
    (hhosts : d.hostArgs = receiver :: d.params) {codes : List (List Token)}
    (hcodes : List.Forall₂ (Declares d) d.params codes) {host : HostArg}
    (hhost : host ∈ d.hostArgs) (hkept : host.name ∈ keptNames config d) :
    d.receiver? = some host ∨ host ∈ d.params ∧ ∃ type, Takes d host type ∧ type.IsReference := by
  have hneeds := needsKeeping_of_mem_keptNames hvalid hhost hkept
  rw [hhosts] at hhost
  obtain rfl | hparam := List.mem_cons.1 hhost
  · left
    rw [Directive.receiver?, hhosts]
    rfl
  · right
    have hdeclares : ∀ host ∈ d.params, ∃ code, Declares d host code :=
      forall_mem_of_forall₂ hcodes fun _ code h => ⟨code, h⟩
    obtain ⟨code, hcode⟩ := hdeclares host hparam
    exact ⟨hparam, exists_isReference_of_needsKeeping hneeds hcode⟩

/-- **Head, call and retention agree on how each argument is passed**, for the method of every line
whose directive has no sequence and names its arguments as code would. -/
theorem takesAndKeeps_of_ofDirective_eq_ok {line : String} {docs : List Doc} {m : Method}
    (hline : Directive.ofLine config line = .ok d) (hsingle : d.variadic = false)
    (hplain : ∀ host ∈ d.hostArgs, identifier host.name = .ok host.name)
    (hm : ofDirective config d docs = .ok m) :
    ∃ args, Call.bind config d = .ok args ∧ TakesAndKeeps config d args m := by
  obtain ⟨w⟩ := nonempty_wrapped hm
  obtain ⟨hvalid, hvariadic⟩ := Directive.valid_of_ofLine_eq_ok hline
  have hbare : Directive.endsWithSequence d = false := hvariadic.symm.trans hsingle
  have hcast : ∀ name, Call.isCast w.args name = true ↔ CastsHost d name := by
    intro name
    rw [Call.isCast_eq hplain w.args_eq, any_casts_iff]
  have hnone := Call.variadic?_eq_none_of_ofLine hline hsingle w.args_eq
  have hmem : ∀ host ∈ d.params, host ∈ d.hostArgs := by
    intro host hhost
    rw [w.hosts_eq]
    exact List.mem_cons_of_mem _ hhost
  have hcodes : List.Forall₂ (Declares d) d.params (m.params.map (·.code)) :=
    forall₂_declares hcast (fun host hhost => hplain host (hmem host hhost))
      (fun host hhost => variadic_eq_false_of_mem hvalid hbare (hmem host hhost)) w.forall₂_params
  have hbody := w.body_eq_of_single hplain hcast hnone
  refine ⟨w.args, w.args_eq, ⟨_, hcodes, rfl⟩,
    ⟨_, w.function, _, w.function_eq, hbody, ?_, ?_⟩, nodup_keptNames hvalid, ?_, ?_⟩
  · intro name
    exact keepAlive_notMem_contextSteps w.receiver w.receiver.name name
  · rw [hbody]
    exact code_wrap_keepAlive _ _ _ _
  · intro host hhost hkept
    exact receiver_or_isReference_of_kept hvalid w.hosts_eq hcodes hhost hkept
  · intro name access variadic hread _
    obtain ⟨host, hhost, rfl⟩ := exists_host_of_read_mem hplain w.args_eq hread
    refine ⟨host, hhost, rfl, ?_⟩
    intro hprimitive hcontext hcasts
    exact mem_keptNames hhost ⟨hprimitive, hcontext, hcasts⟩

/-- A line with a context, a reference, a plain value, an argument that is cast in one place and has
its handle read in another, and one that is taken by reference. -/
theorem takesAndKeeps_of_pick_line :
    ∃ d args m,
      Directive.ofLine {}
        "//wrap:expr pick x c:&Context s:&Sym n:u32 k y:Int : Z3_pick x s n:c_uint k:Z3_ast k y" =
          .ok d ∧
      d.variadic = false ∧ (∀ host ∈ d.hostArgs, identifier host.name = .ok host.name) ∧
      ofDirective {} d [] = .ok m ∧ Call.bind {} d = .ok args ∧ TakesAndKeeps {} d args m ∧
      keptNames {} d = ["x", "s", "y"] := by
  have hd : Directive.ofLine {}
      "//wrap:expr pick x c:&Context s:&Sym n:u32 k y:Int : Z3_pick x s n:c_uint k:Z3_ast k y" =
        .ok ⟨"pick", "Expr", [⟨"x", "Expr", false⟩, ⟨"c", "&Context", false⟩, ⟨"s", "&Sym", false⟩,
          ⟨"n", "u32", false⟩, ⟨"k", "Expr", false⟩, ⟨"y", "Int", false⟩], "Z3_pick",
          [.reference "x" none, .reference "s" none, .reference "n" (some "c_uint"),
            .reference "k" (some "Z3_ast"), .reference "k" none, .reference "y" none],
          false, false⟩ := by decide +kernel
  have hplain : ∀ host ∈ ([⟨"x", "Expr", false⟩, ⟨"c", "&Context", false⟩, ⟨"s", "&Sym", false⟩,
      ⟨"n", "u32", false⟩, ⟨"k", "Expr", false⟩, ⟨"y", "Int", false⟩] : List HostArg),
      identifier host.name = .ok host.name := by decide +kernel
  obtain ⟨m, -, hm⟩ := exists_ofLine_eq_ok hd [] (by decide +kernel)
  obtain ⟨args, hargs, htakes⟩ := takesAndKeeps_of_ofDirective_eq_ok hd rfl hplain hm
  exact ⟨_, args, m, hd, rfl, hplain, hm, hargs, htakes, by decide +kernel⟩

end Method

end ForeignWrap
