import ForeignWrap.Proofs.Code.Name
import ForeignWrap.Proofs.Method.Failure
import ForeignWrap.Proofs.Method.Hygiene
import ForeignWrap.Proofs.Method.Retention

/-!
# What a method casts

An argument of the call that a directive gives a type is cast to it. Whether what is cast is a value
is up to the head of the method. The head takes the receiver and a sequence by reference in any
case, and it finds what is cast by the name that the host argument is written with. What the name
stands for is looked up where the cast is written: a variable of the body may hide the argument.

## Main definitions

* `ForeignWrap.Method.castsAt`: the casts that a method is written with.
* `ForeignWrap.Method.Parts.castScope`: what can be seen where a cast is written.
* `ForeignWrap.Method.IsValueParam`: what is cast is an argument that is taken by value.
* `ForeignWrap.Method.castsAt_of_ofDirective_eq_ok`: which casts there are, and when that is so.
-/

namespace ForeignWrap

open Code (Token)
open Directive (HostArg ForeignArg)

/-! ## Names and types -/

/-- What a text is read as is a name by itself. -/
theorem Call.identifier_eq_self {text name : String} (h : identifier text = .ok name) :
    identifier name = .ok name := by
  obtain ⟨hword, hname⟩ := Syntax.nameOf_eq_ok_iff.1 (mapError_eq_ok_iff.1 h)
  exact mapError_eq_ok_iff.2 (Syntax.nameOf_eq_ok_iff.2 ⟨Code.saysWord_self hword.1, hname⟩)

/-- A type that is a reference, be it between parentheses. -/
inductive Syntax.IsReferenceType : Syntax.Tree .type → Prop where
  | reference (lifetime : Option String) (mutable : Bool) (elem : Syntax.Tree .type) :
      IsReferenceType (.referenceType lifetime mutable elem)
  | paren {elem : Syntax.Tree .type} : IsReferenceType elem → IsReferenceType (.parenType elem)

namespace Method

open Call (identifier)

variable {config : Config} {d : Directive} {args : List Call.Arg} {docs : List Doc} {m : Method}

/-- The type of a host argument is a reference by itself. -/
def HasReferenceType (host : HostArg) : Prop :=
  ∃ type, Syntax.typeOf host.type = .ok type ∧ Syntax.IsReferenceType type.tree

theorem not_hasReferenceType_of_path {host : HostArg}
    (h : (Syntax.typeOf host.type).map (·.tree matches .pathType _) = .ok true) :
    ¬ HasReferenceType host := by
  rintro ⟨type, htype, hreference⟩
  rw [htype] at h
  cases htree : type.tree with
  | pathType path =>
    rw [htree] at hreference
    cases hreference
  | _ => simp [Except.map, htree] at h

/-! ## The casts of a method -/

/-- The variable that an argument of the call casts, and its type, where the argument reads its host
argument or what stands in for this one. -/
def castOn? (element : Option String) : Call.Arg → Option (String × List Token)
  | .read name (.cast type) _ => some (element.getD name, type)
  | _ => none

/-- The cast that a step is written with for the argument at a place of the call. -/
def Step.castAt? (place : Nat) : Step → Option (String × List Token)
  | .call _ (.each args) => args[place]?.bind (castOn? none)
  | .fillSlot slot value => if slot = place then castOn? none value else none
  | .fillRest _ slot element => if slot = place then castOn? (some "item") element else none
  | _ => none

namespace Step

@[simp] theorem castAt?_call (place : Nat) (function : String) (args : List Call.Arg) :
    (call function (.each args)).castAt? place = args[place]?.bind (castOn? none) :=
  rfl

@[simp] theorem castAt?_callArray (place : Nat) (function : String) :
    (call function .array).castAt? place = none :=
  rfl

@[simp] theorem castAt?_fillSlot (place slot : Nat) (value : Call.Arg) :
    (fillSlot slot value).castAt? place = if slot = place then castOn? none value else none :=
  rfl

@[simp] theorem castAt?_fillRest (place : Nat) (sequence : String) (slot : Nat)
    (element : Call.Arg) : (fillRest sequence slot element).castAt? place =
      if slot = place then castOn? (some "item") element else none :=
  rfl

@[simp] theorem castAt?_makeArray (place : Nat) (handleType : List Token) (sequence : String)
    (fixed : Nat) : (makeArray handleType sequence fixed).castAt? place = none :=
  rfl

@[simp] theorem castAt?_keepAlive (place : Nat) (name : String) :
    (keepAlive name).castAt? place = none :=
  rfl

@[simp] theorem castAt?_keepArrayAlive (place : Nat) : keepArrayAlive.castAt? place = none :=
  rfl

end Step

/-- The casts that a method is written with for the argument at a place of its call. -/
def castsAt (m : Method) (place : Nat) : List (String × List Token) :=
  match m.body with
  | .wrap ss _ => ss.filterMap (·.castAt? place)
  | .distinct _ _ => []

@[simp] theorem filterMap_castAt?_contextSteps (place : Nat) (receiver : HostArg) (name : String) :
    (contextSteps config receiver name).filterMap (·.castAt? place) = [] := by
  unfold contextSteps
  split_ifs <;> rfl

/-- Statements for one slot after the other write the cast for a slot where its value has one. -/
theorem filterMap_castAt?_fillSlot {place start : Nat} (hstart : start ≤ place)
    (values : List Call.Arg) :
    ((values.zipIdx start).map fun (value, slot) => Step.fillSlot slot value).filterMap
        (·.castAt? place) = (values[place - start]?.bind (castOn? none)).toList := by
  rw [List.filterMap_map]
  induction values generalizing start with
  | nil => simp
  | cons value values ih =>
    rw [List.zipIdx_cons, List.filterMap_cons]
    obtain rfl | hlt := Nat.eq_or_lt_of_le hstart
    · have hrest : (values.zipIdx (start + 1)).filterMap
          ((·.castAt? start) ∘ fun (value, slot) => Step.fillSlot slot value) = [] := by
        rw [List.filterMap_eq_nil_iff]
        rintro ⟨later, slot⟩ hmem
        have hslot := (List.mk_mem_zipIdx_iff_le_and_getElem?_sub.1 hmem).1
        exact if_neg (by omega)
      rw [hrest, Nat.sub_self]
      simp only [Function.comp_apply, Step.castAt?, if_true, List.getElem?_cons_zero,
        Option.bind_some]
      cases castOn? none value <;> rfl
    · have hplace : place - start = (place - (start + 1)) + 1 := by omega
      rw [ih hlt, hplace, List.getElem?_cons_succ]
      simp only [Function.comp_apply, Step.castAt?, if_neg (Nat.ne_of_lt hlt)]

/-- The steps that pass an array write the casts of the fixed arguments, and of the elements after
them. -/
theorem filterMap_castAt?_arrayCall (place : Nat) (receiver : HostArg)
    (function name sequence : String) (handleType : List Token) (fixed : List Call.Arg)
    (element : Call.Arg) :
    (contextSteps config receiver name ++ arraySteps handleType fixed sequence element ++
        ([.call function .array, .keepArrayAlive] : List Step)).filterMap (·.castAt? place) =
      (fixed[place]?.bind (castOn? none)).toList ++
        if fixed.length = place then (castOn? (some "item") element).toList else [] := by
  have hfill := filterMap_castAt?_fillSlot (Nat.zero_le place) fixed
  have hlast : ([.fillRest sequence fixed.length element] : List Step).filterMap
      (·.castAt? place) =
        if fixed.length = place then (castOn? (some "item") element).toList else [] := by
    simp only [List.filterMap_cons, List.filterMap_nil, Step.castAt?]
    split_ifs
    · cases castOn? (some "item") element <;> rfl
    · rfl
  rw [Nat.sub_zero] at hfill
  rw [List.filterMap_append, List.filterMap_append, filterMap_castAt?_contextSteps, arraySteps,
    List.filterMap_append, List.filterMap_cons, hfill, hlast]
  simp

/-- The cast that an argument of the call is written as: a sequence is cast element by element. -/
def callCast? (arg : Call.Arg) : Option (String × List Token) :=
  castOn? (if arg.isVariadic then some "item" else none) arg

theorem callCast?_of_single {arg : Call.Arg} (h : arg.isVariadic = false) :
    callCast? arg = castOn? none arg := by
  rw [callCast?, h]
  rfl

@[simp] theorem filterMap_castAt?_keepAlive (names : List (HostArg × String)) (place : Nat) :
    (names.map fun (_, name) => Step.keepAlive name).filterMap (·.castAt? place) = [] := by
  simp

/-- A method is written with one cast for each argument of its call that has one, at its place. -/
theorem filterMap_castAt?_of_steps_eq_ok (hbound : Call.Bound config d args) {receiver : HostArg}
    {function receiverName : String} {hosts : List (HostArg × String)} {ss : List Step}
    (h : steps config function args receiver receiverName hosts = .ok ss) (place : Nat) :
    ss.filterMap (·.castAt? place) = (args[place]?.bind callCast?).toList := by
  have hsingle : ∀ arg, args[place]? = some arg → ¬ (place + 1 = args.length ∧ d.variadic = true) →
      callCast? arg = castOn? none arg := by
    intro arg harg hplace
    rw [← hbound.isVariadic_iff place arg harg, Bool.not_eq_true] at hplace
    exact callCast?_of_single hplace
  cases hvariadic : Call.variadic? args with
  | none =>
    have hd : d.variadic = false := by
      rw [← hbound.isSome_variadic?, hvariadic]
      rfl
    rw [steps_eq_of_variadic?_eq_none hvariadic] at h
    obtain rfl := Except.ok.inj h
    rw [List.filterMap_append, filterMap_castAt?_contextSteps, List.filterMap_cons,
      filterMap_castAt?_keepAlive]
    cases harg : args[place]? with
    | none => simp [harg]
    | some arg =>
      simp only [Step.castAt?, harg, Option.bind_some, hsingle arg harg (by simp [hd])]
      cases castOn? none arg <;> rfl
  | some element =>
    obtain ⟨host, name, access, -, -, -, rfl⟩ := hbound.reads_last element hvariadic
    have hargs : Call.fixed args ++ [.read name access true] = args := by
      simpa [hvariadic] using hbound.fixed_eq
    have hlength := congrArg List.length hargs
    rw [List.length_append, List.length_singleton] at hlength
    simp only [steps, sequence?, hvariadic] at h
    obtain ⟨handleType, -, h⟩ := bind_eq_ok_iff.1 h
    obtain rfl := Except.ok.inj h
    rw [filterMap_castAt?_arrayCall]
    obtain hlt | hge := Nat.lt_or_ge place (Call.fixed args).length
    · -- A fixed argument is put into its own slot.
      have harg : (Call.fixed args)[place]? = args[place]? := by
        conv_rhs => rw [← hargs]
        exact (List.getElem?_append_left hlt).symm
      rw [harg, if_neg (by omega), List.append_nil]
      cases hfound : args[place]? with
      | none => rfl
      | some arg => simp only [Option.bind_some, hsingle arg hfound (by omega)]
    · rw [List.getElem?_eq_none hge]
      obtain rfl | hlt := Nat.eq_or_lt_of_le hge
      · have harg : (Call.fixed args ++ [.read name access true])[(Call.fixed args).length]? =
            some (.read name access true) := List.getElem?_concat_length
        rw [hargs] at harg
        rw [harg, if_pos rfl]
        rfl
      · rw [List.getElem?_eq_none (by omega), if_neg (by omega)]
        rfl

/-! ## What is cast -/

/-- What can be seen where an argument of the call is cast: the array, if there is one, or else the
raw context, and the element of a sequence. -/
def Parts.castScope (p : Parts config d) (host : HostArg) : Scope :=
  if host.variadic then ("item", .own) :: ("i", .own) :: p.scopeWith ["cargs"]
  else p.scopeWith (if d.variadic then ["cargs"] else ["raw_ctx"])

/-- The variable stands for the argument of the method for the host argument at `place`, and this
argument is taken with its own type, which is no reference. -/
def IsValueParam (m : Method) (scope : Scope) (place : Nat) (host : HostArg) (var : String) :
    Prop :=
  scope.meaning var = .host place ∧
    ∃ i param type, place = i + 1 ∧ m.params[i]? = some param ∧ param.name = var ∧
      param.passing = .byValue ∧ Syntax.typeOf host.type = .ok type ∧ param.type = type.tokens ∧
      ¬ Syntax.IsReferenceType type.tree

theorem passingOf_eq_byValue_iff {host : HostArg} :
    passingOf args host = .byValue ↔ host.variadic = false ∧
      (isPrimitive host.type = true ∨ Call.isCast args host.name = true ∨
        Text.beginsWith "&" host.type = true) := by
  unfold passingOf
  cases host.variadic with
  | true => simp
  | false => simp only [Bool.false_eq_true, if_false, ite_eq_left_iff, reduceCtorEq, imp_false,
      not_not, Bool.or_eq_true, or_assoc, true_and]

/-- The head sees that a host argument is cast exactly if its name is code as it is. -/
theorem isCast_iff_identifier (hbind : Call.bind config d = .ok args) {place : Nat} {host : HostArg}
    {name : String} {type : List Token} {variadic : Bool}
    (harg : args[place]? = some (.read name (.cast type) variadic))
    (hname : identifier host.name = .ok name) :
    Call.isCast args host.name = true ↔ identifier host.name = .ok host.name := by
  constructor
  · intro hcast
    obtain ⟨arg, hmem, hcasts⟩ := List.any_eq_true.1 hcast
    cases arg with
    | literal code => cases hcasts
    | read other access variadic' =>
      cases access with
      | cast _ =>
        obtain rfl : other = host.name := of_decide_eq_true hcasts
        -- What this cast reads has the name as code, so the name is code as it is.
        have hall : ∀ arg ∈ args, ∀ name access variadic, arg = .read name access variadic →
            identifier name = .ok name := by
          refine forall_mem_of_forall₂ (Call.binds_of_bind_eq_ok hbind).flip ?_
          rintro _ foreign hbinds name access variadic rfl
          obtain ⟨host', -, hidentifier, -⟩ := Call.exists_identifier_of_binds_read hbinds
          exact Call.identifier_eq_self hidentifier
        exact hall _ hmem _ _ _ rfl
      | _ => cases hcasts
  · intro hplain
    obtain rfl : host.name = name := Except.ok.inj (hplain.symm.trans hname)
    exact List.any_eq_true.2 ⟨_, List.mem_of_getElem? harg, decide_eq_true rfl⟩

/-- The variable that is cast stands for its argument exactly if nothing hides it. -/
theorem Parts.meaning_castScope_iff {p : Parts config d} {host : HostArg} {place : Nat}
    {name : String} (hname : p.names[place]? = some name) (hsingle : host.variadic = false) :
    (p.castScope host).meaning name = .host place ↔
      p.Visible (if d.variadic then ["cargs"] else ["raw_ctx"]) place := by
  have hlocals : (if d.variadic then ["cargs"] else ["raw_ctx"]) ⊆ ["raw_ctx", "cargs", "ast"] := by
    split <;> simp
  rw [castScope, hsingle, if_neg Bool.false_ne_true]
  exact Parts.resolves_host_iff hlocals hname

/-- Which host arguments are taken by value and are what they are read as. -/
theorem isValueParam_iff {p : Parts config d} {receiver host : HostArg} {place : Nat}
    {name : String}
    (hparams : List.Forall₂ (fun host param => paramOf args host = .ok param) d.params m.params)
    (hhosts : d.hostArgs = receiver :: d.params) (hplace : d.hostArgs[place]? = some host)
    (hname : identifier host.name = .ok name) (hget : p.names[place]? = some name)
    (hcast : Call.isCast args host.name = true ↔ identifier host.name = .ok host.name) :
    IsValueParam m (p.castScope host) place host (if host.variadic then "item" else name) ↔
      place ≠ 0 ∧ host.variadic = false ∧ ¬ HasReferenceType host ∧
        (isPrimitive host.type = true ∨ identifier host.name = .ok host.name) ∧
        p.Visible (if d.variadic then ["cargs"] else ["raw_ctx"]) place := by
  have hparam : ∀ i, place = i + 1 → ∃ type, m.params[i]? =
      some ⟨name, type.tokens, passingOf args host⟩ ∧ Syntax.typeOf host.type = .ok type := by
    rintro i rfl
    rw [hhosts, List.getElem?_cons_succ] at hplace
    obtain ⟨param, hparam, h⟩ := exists_getElem?_of_forall₂ hparams hplace
    obtain ⟨name', hname', h⟩ := bind_eq_ok_iff.1 h
    obtain ⟨type, htype, h⟩ := bind_eq_ok_iff.1 h
    cases h
    obtain rfl : name = name' := Except.ok.inj (hname.symm.trans hname')
    exact ⟨type, hparam, mapError_eq_ok_iff.1 htype⟩
  constructor
  · rintro ⟨hmeaning, i, param, type, rfl, hat, -, hpassing, htype, -, hvalue⟩
    obtain ⟨type', hat', -⟩ := hparam i rfl
    obtain rfl := Option.some.inj (hat'.symm.trans hat)
    obtain ⟨hsingle, hvalues⟩ := passingOf_eq_byValue_iff.1 hpassing
    rw [hsingle, if_neg Bool.false_ne_true, Parts.meaning_castScope_iff hget hsingle] at hmeaning
    refine ⟨by omega, hsingle, ?_, ?_, hmeaning⟩
    · rintro ⟨type'', htype'', hreference⟩
      obtain rfl : type = type'' := Except.ok.inj (htype.symm.trans htype'')
      exact hvalue hreference
    · obtain hprimitive | hcast' | hreference := hvalues
      · exact .inl hprimitive
      · exact .inr (hcast.1 hcast')
      · obtain ⟨rest, hrest⟩ := Text.beginsWith_iff.1 hreference
        obtain ⟨lifetime, mutable, elem, htree⟩ := Syntax.isReference_of_typeOf_eq_ok hrest htype
        exact absurd (htree ▸ .reference lifetime mutable elem) hvalue
  · rintro ⟨hne, hsingle, hvalue, hplain, hvisible⟩
    obtain ⟨i, hi⟩ := Nat.exists_eq_succ_of_ne_zero hne
    obtain ⟨type, hat, htype⟩ := hparam i hi
    rw [hsingle, if_neg Bool.false_ne_true]
    refine ⟨(Parts.meaning_castScope_iff hget hsingle).2 hvisible, i, _, type, hi, hat, rfl, ?_,
      htype, rfl, ?_⟩
    · exact passingOf_eq_byValue_iff.2 ⟨hsingle, hplain.imp_right fun h => .inl (hcast.2 h)⟩
    · intro hreference
      exact hvalue ⟨type, htype, hreference⟩

/-- **What a method casts is an argument taken by value** exactly if it is no receiver, no sequence
and no reference by itself, if it is a plain value or has a name that is code as it is written, and
if nothing hides it where it is cast. Each argument of the call that has a type is written as one
cast. -/
theorem castsAt_of_ofDirective_eq_ok {line text type : String} {place : Nat}
    (hline : Directive.ofLine config line = .ok d) (hm : ofDirective config d docs = .ok m)
    (hforeign : d.foreignArgs[place]? = some (.reference text (some type))) :
    ∃ p : Parts config d, p.routine.tokens = m.body.code ∧
      p.routine.params = m.params.map (·.name) ∧
      ∃ hostPlace host castType var,
        d.hostArgs[hostPlace]? = some host ∧ host.name = (Directive.splitMarker text).1 ∧
        Syntax.typeOf type = .ok castType ∧ m.castsAt place = [(var, castType.tokens)] ∧
        (IsValueParam m (p.castScope host) hostPlace host var ↔
          hostPlace ≠ 0 ∧ host.variadic = false ∧ ¬ HasReferenceType host ∧
            (isPrimitive host.type = true ∨ identifier host.name = .ok host.name) ∧
            p.Visible (if d.variadic then ["cargs"] else ["raw_ctx"]) hostPlace) := by
  obtain ⟨w⟩ := nonempty_wrapped hm
  obtain ⟨p, hcode, hparams⟩ := exists_parts_of_ofDirective_eq_ok hm
  obtain ⟨hvalid, hvariadic⟩ := Directive.valid_of_ofLine_eq_ok hline
  have hbound := Call.bound_of_bind_eq_ok hvalid hvariadic w.args_eq
  obtain ⟨arg, harg, hbinds⟩ :=
    exists_getElem?_of_forall₂ (Call.binds_of_bind_eq_ok w.args_eq) hforeign
  cases arg with
  | literal code => cases hbinds
  | read name access variadic =>
    have hget := p.getElem?_names_of_binds hbinds
    cases hbinds with
    | @read _ _ cast host _ hplace hname haccess hidentifier =>
      obtain ⟨castType, hcastType, rfl⟩ := map_eq_ok_iff.1 haccess
      have hcasts := filterMap_castAt?_of_steps_eq_ok hbound w.steps_eq place
      rw [harg] at hcasts
      refine ⟨p, hcode, hparams, _, host, castType, _, hplace, hname,
        mapError_eq_ok_iff.1 hcastType,
        ?_, isValueParam_iff w.forall₂_params w.hosts_eq hplace hidentifier hget
          (isCast_iff_identifier w.args_eq harg hidentifier)⟩
      rw [castsAt, w.body_eq]
      refine hcasts.trans ?_
      cases host.variadic <;> rfl

/-- A plain value that is cast. -/
theorem castsAt_of_extract_line :
    ∃ d m, ∃ p : Parts {} d, ∃ hostPlace host castType var,
      Directive.ofLine {} "//wrap:expr extract x high:u32 : Z3_extract x high:c_uint" = .ok d ∧
      ofDirective {} d [] = .ok m ∧ p.routine.tokens = m.body.code ∧
      d.foreignArgs[1]? = some (.reference "high" (some "c_uint")) ∧
      d.hostArgs[hostPlace]? = some host ∧ host.name = "high" ∧
      Syntax.typeOf "c_uint" = .ok castType ∧ m.castsAt 1 = [(var, castType.tokens)] ∧
      IsValueParam m (p.castScope host) hostPlace host var := by
  obtain ⟨d, hd⟩ : ∃ d, d = (⟨"extract", "Expr", [⟨"x", "Expr", false⟩, ⟨"high", "u32", false⟩],
    "Z3_extract", [.reference "x" none, .reference "high" (some "c_uint")], false, false⟩ :
      Directive) := ⟨_, rfl⟩
  have hline : Directive.ofLine {} "//wrap:expr extract x high:u32 : Z3_extract x high:c_uint" =
      .ok d := by
    rw [hd]
    decide +kernel
  have hwrap : (ofDirective {} d []).toBool = true := by
    rw [hd]
    decide +kernel
  obtain ⟨m, hm⟩ := exists_eq_ok_of_toBool hwrap
  have hforeign : d.foreignArgs[1]? = some (.reference "high" (some "c_uint")) := by
    rw [hd]
    rfl
  obtain ⟨p, hcode, -, hostPlace, host, castType, var, hhost, hname, hcast, hcasts, hiff⟩ :=
    castsAt_of_ofDirective_eq_ok hline hm hforeign
  have hname : host.name = "high" := hname.trans (by decide +kernel)
  have hnames : p.names = ["x", "high"] := by
    refine p.names_eq_of_mapM ?_
    rw [hd]
    decide +kernel
  have hlocals : (if d.variadic then ["cargs"] else ["raw_ctx"]) = ["raw_ctx"] := by rw [hd]; rfl
  have hvisible : p.Visible (if d.variadic then ["cargs"] else ["raw_ctx"]) hostPlace := by
    rw [hlocals]
    refine Parts.visible_of_names ?_ ?_ hostPlace
    · rw [hnames]
      decide +kernel
    · rw [hnames]
      decide +kernel
  refine ⟨d, m, p, hostPlace, host, castType, var, hline, hm, hcode, hforeign, hhost, hname, hcast,
    hcasts, hiff.2 ?_⟩
  rw [hd] at hhost
  obtain _ | _ | hostPlace := hostPlace
  · obtain rfl := Option.some.inj hhost
    simp at hname
  · obtain rfl := Option.some.inj hhost
    exact ⟨one_ne_zero, rfl, not_hasReferenceType_of_path (by decide +kernel),
      .inl (by decide +kernel), hvisible⟩
  · simp at hhost

/-- An argument whose name has a comment is taken by reference, and cast. -/
theorem exists_cast_of_reference :
    ∃ d m,
      Directive.ofLine {} "//wrap:expr f x n//:Int : Z3_f x n//:c_int" = .ok d ∧
      ofDirective {} d [] = .ok m ∧ (m.castsAt 1).map Prod.fst = ["n"] ∧
      ∀ scope place host, ¬ IsValueParam m scope place host "n" := by
  have hread : (ofLine {} "//wrap:expr f x n//:Int : Z3_f x n//:c_int" []).toOption.map (fun m =>
      ((m.castsAt 1).map Prod.fst, m.params.map (·.passing))) = some (["n"], [.byReference]) := by
    decide +kernel
  obtain ⟨m, hm, hread⟩ := toOption_map_eq_some_iff.1 hread
  obtain ⟨hcasts, hpassing⟩ := Prod.mk.inj hread
  obtain ⟨d, hd, hm⟩ := bind_eq_ok_iff.1 hm
  refine ⟨d, m, hd, hm, hcasts, ?_⟩
  rintro scope place host ⟨-, i, param, type, -, hparam, -, hvalue, -⟩
  have hmem : param.passing ∈ m.params.map (·.passing) :=
    List.mem_map_of_mem (List.mem_of_getElem? hparam)
  rw [hpassing, hvalue] at hmem
  simp at hmem

end Method

end ForeignWrap
