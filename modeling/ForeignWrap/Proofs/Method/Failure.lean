import ForeignWrap.Proofs.Method.Wrap

/-!
# What a valid directive can fail for

A directive that keeps the rules can still lack its method: a name or a type may be no code. That is
all that it can lack. What its call refers to is there, and each argument of the call is bound to
the one thing that it names.

## Main definitions

* `ForeignWrap.Directive.OkOrInvalidCode`: results that only texts which are no code can prevent.
* `ForeignWrap.Call.Resolves`: what an argument of a call is, and how it is read.
* `ForeignWrap.Call.Bound`: the arguments of a call, and which of them is a sequence.
* `ForeignWrap.Method.okOrInvalidCode_of_ofLine_eq_ok`: what holds of the directive of any line.
-/

namespace ForeignWrap

/-! ## Results that need code -/

namespace Directive

variable {α β : Type}

/-- A result that is there, unless some text is not the code that it was to be. -/
inductive OkOrInvalidCode : Except Error α → Prop where
  | ok (a : α) : OkOrInvalidCode (.ok a)
  | invalidCode (what : Part) (text : String) (reason : Syntax.SyntaxError) :
      OkOrInvalidCode (.error (.invalidCode what text reason))

theorem OkOrInvalidCode.bind {step : Except Error α} {next : α → Except Error β}
    (hstep : OkOrInvalidCode step) (hnext : ∀ a, step = .ok a → OkOrInvalidCode (next a)) :
    OkOrInvalidCode (step >>= next) := by
  cases hstep with
  | ok a => exact hnext a rfl
  | invalidCode what text reason => exact .invalidCode what text reason

theorem OkOrInvalidCode.map {step : Except Error α} (h : OkOrInvalidCode step) (f : α → β) :
    OkOrInvalidCode (step.map f) := by
  cases h with
  | ok a => exact .ok (f a)
  | invalidCode what text reason => exact .invalidCode what text reason

/-- A list of steps fails only as one of its steps does. -/
theorem okOrInvalidCode_mapM {f : α → Except Error β} {xs : List α}
    (h : ∀ x ∈ xs, OkOrInvalidCode (f x)) : OkOrInvalidCode (xs.mapM f) := by
  induction xs with
  | nil => exact .ok []
  | cons x xs ih =>
    rw [List.mapM_cons]
    obtain ⟨hx, hxs⟩ := List.forall_mem_cons.1 h
    exact hx.bind fun y _ => (ih hxs).bind fun ys _ => .ok (y :: ys)

theorem okOrInvalidCode_readPart (what : Part) (text : String)
    (read : Except Syntax.SyntaxError α) : OkOrInvalidCode (readPart what text read) := by
  cases read with
  | ok a => exact .ok a
  | error reason => exact .invalidCode what text reason

end Directive

/-! ## The arguments of a call -/

namespace Call

open Code (Token)
open Directive (Error ForeignArg HostArg Valid OkOrInvalidCode endsWithSequence splitMarker
  okOrInvalidCode_mapM okOrInvalidCode_readPart)

variable {config : Config} {d : Directive} {args : List Arg}

theorem okOrInvalidCode_identifier (text : String) : OkOrInvalidCode (identifier text) :=
  okOrInvalidCode_readPart ..

theorem okOrInvalidCode_typeAs (what : Directive.Part) (text : String) :
    OkOrInvalidCode (typeAs what text) :=
  okOrInvalidCode_readPart ..

theorem okOrInvalidCode_accessOf (config : Config) (host : HostArg) (cast : Option String) :
    OkOrInvalidCode (accessOf config host cast) := by
  cases cast with
  | none => exact .ok _
  | some type => exact (okOrInvalidCode_typeAs ..).map _

/-- `host` is what the reference `text` names: it has the name, and no other argument of the method
has. -/
def IsNamed (d : Directive) (text : String) (host : HostArg) : Prop :=
  d.hostArgs.filter (·.name = (splitMarker text).1) = [host]

theorem filter_eq_singleton {α β : Type} [DecidableEq β] {f : α → β} {xs : List α} {x : α}
    (hnodup : (xs.map f).Nodup) (hx : x ∈ xs) : xs.filter (f · = f x) = [x] := by
  induction xs with
  | nil => simp at hx
  | cons y ys ih =>
    obtain ⟨hy, hys⟩ := List.nodup_cons.1 hnodup
    obtain rfl | hx := List.mem_cons.1 hx
    · have hnone : ys.filter (f · = f x) = [] := by
        rw [List.filter_eq_nil_iff]
        intro z hz hfz
        exact hy (List.mem_map.2 ⟨z, hz, by simpa using hfz⟩)
      simp [hnone]
    · have hne : f y ≠ f x := fun h => hy (h ▸ List.mem_map_of_mem hx)
      simp [hne, ih hys hx]

theorem isNamed_of_mem (hvalid : Valid d) {host : HostArg} {text : String}
    (hhost : host ∈ d.hostArgs) (hname : host.name = (splitMarker text).1) :
    IsNamed d text host := by
  rw [IsNamed, ← hname]
  exact filter_eq_singleton hvalid.names_nodup hhost

/-- What a reference of a valid directive names is there. -/
theorem exists_hostArg?_eq_some (hvalid : Valid d) {text : String} {cast : Option String}
    (hmem : .reference text cast ∈ d.foreignArgs) :
    ∃ host, d.hostArg? (splitMarker text).1 = some host := by
  obtain ⟨host, hhost, hname, -⟩ := hvalid.refers_host _ hmem (splitMarker text).1
    (splitMarker text).2 (Directive.refers_reference_iff.2 rfl)
  rw [← Option.isSome_iff_exists, Directive.hostArg?, List.find?_isSome]
  exact ⟨host, hhost, by simpa using hname⟩

theorem okOrInvalidCode_bindArg (hvalid : Valid d) {arg : ForeignArg} (hmem : arg ∈ d.foreignArgs) :
    OkOrInvalidCode (bindArg config d arg) := by
  cases arg with
  | literal code => exact (okOrInvalidCode_readPart ..).map _
  | reference text cast =>
    obtain ⟨host, hhost⟩ := exists_hostArg?_eq_some hvalid hmem
    simp only [bindArg, hhost]
    exact (okOrInvalidCode_accessOf ..).bind fun access _ =>
      (okOrInvalidCode_identifier _).bind fun name _ => .ok _

theorem okOrInvalidCode_bind (config : Config) (hvalid : Valid d) :
    OkOrInvalidCode (bind config d) :=
  okOrInvalidCode_mapM fun _ => okOrInvalidCode_bindArg hvalid

/-- What an argument of a call is. Code is itself; a reference reads the one argument of the method
that it names, through a cast exactly if one is written, else through the expression inside exactly
if that argument can be an expression of any kind. -/
inductive Resolves (config : Config) (d : Directive) : ForeignArg → Arg → Prop where
  | literal {code : String} {tokens : List Token} :
      Syntax.tokensOf code = .ok tokens → Resolves config d (.literal code) (.literal tokens)
  | cast {text type name : String} {host : HostArg} {written : Syntax.Written .type} :
      IsNamed d text host → identifier host.name = .ok name →
      Syntax.typeOf type = .ok written →
      Resolves config d (.reference text (some type))
        (.read name (.cast written.tokens) host.variadic)
  | unwrap {text name : String} {host : HostArg} :
      IsNamed d text host → identifier host.name = .ok name → config.isExpr host.type = true →
      Resolves config d (.reference text none) (.read name .unwrap host.variadic)
  | handle {text name : String} {host : HostArg} :
      IsNamed d text host → identifier host.name = .ok name → config.isExpr host.type = false →
      Resolves config d (.reference text none) (.read name .handle host.variadic)

theorem Binds.resolves (hvalid : Valid d) {foreign : ForeignArg} {arg : Arg}
    (h : Binds config d foreign arg) : Resolves config d foreign arg := by
  cases h with
  | literal htokens => exact .literal htokens
  | @read text name cast host access hplace hname haccess hidentifier =>
    have hnamed := isNamed_of_mem hvalid (List.mem_of_getElem? hplace) hname
    cases cast with
    | some type =>
      obtain ⟨written, hwritten, rfl⟩ := map_eq_ok_iff.1 haccess
      exact .cast hnamed hidentifier (mapError_eq_ok_iff.1 hwritten)
    | none =>
      obtain rfl : (if config.isExpr host.type then .unwrap else .handle) = access :=
        Except.ok.inj haccess
      cases hexpr : config.isExpr host.type with
      | true => exact .unwrap hnamed hidentifier hexpr
      | false => exact .handle hnamed hidentifier hexpr

/-- The arguments of the call of a directive: each is what the directive says, and a sequence is
passed exactly if the directive ends with one, as the last argument. -/
structure Bound (config : Config) (d : Directive) (args : List Arg) : Prop where
  resolves : List.Forall₂ (Resolves config d) d.foreignArgs args
  isVariadic_iff : ∀ i arg, args[i]? = some arg →
    (arg.isVariadic = true ↔ i + 1 = args.length ∧ d.variadic = true)
  isSome_variadic? : (variadic? args).isSome = d.variadic
  /-- The sequence of the call is the last argument of the method. -/
  reads_last : ∀ arg, variadic? args = some arg →
    ∃ host name access, d.hostArgs.getLast? = some host ∧ host.variadic = true ∧
      identifier host.name = .ok name ∧ arg = .read name access true
  fixed_eq : fixed args ++ (variadic? args).toList = args

theorem fixed_append_variadic? (args : List Arg) :
    fixed args ++ (variadic? args).toList = args := by
  obtain rfl | ⟨front, last, rfl⟩ := List.eq_nil_or_concat args
  · rfl
  · rw [List.concat_eq_append, fixed, variadic?_concat]
    cases last.isVariadic <;> simp

/-- Of the arguments of a call, the last is a sequence if the directive ends with one, and none else
is. -/
theorem isVariadic_iff_of_getElem? (hvalid : Valid d) (hbind : bind config d = .ok args) {i : Nat}
    {arg : Arg} (harg : args[i]? = some arg) :
    arg.isVariadic = true ↔ i + 1 = args.length ∧ endsWithSequence d = true := by
  by_cases hd : endsWithSequence d = true
  · obtain ⟨_, _, _, front, name, access, _, -, rfl, -, hfront, -⟩ :=
      exists_split_of_endsWithSequence hvalid hbind hd
    by_cases hi : i < front.length
    · rw [List.getElem?_append_left hi] at harg
      have hbare := hfront arg (List.mem_of_getElem? harg)
      constructor
      · intro h
        rw [hbare] at h
        cases h
      · intro h
        have hlength := h.1
        rw [List.length_append, List.length_singleton] at hlength
        omega
    · have hlast : i = front.length := by
        have hlength := (List.getElem?_eq_some_iff.1 harg).1
        rw [List.length_append, List.length_singleton] at hlength
        omega
      subst hlast
      obtain rfl : Arg.read name access true = arg := by simpa using harg
      simp [Arg.isVariadic, hd]
  · have hnone := not_isVariadic_of_mem hvalid hbind (by simpa using hd) arg
      (List.mem_of_getElem? harg)
    simp [hnone, hd]

/-- What reads an argument of the method has its name as code. -/
theorem exists_identifier_of_binds_read {foreign : ForeignArg} {name : String} {access : Access}
    {variadic : Bool} (h : Binds config d foreign (.read name access variadic)) :
    ∃ host ∈ d.hostArgs, identifier host.name = .ok name ∧ host.variadic = variadic := by
  cases h with
  | read hplace _ _ hidentifier => exact ⟨_, List.mem_of_getElem? hplace, hidentifier, rfl⟩

/-- The sequence that a call passes is the last argument of the method. -/
theorem exists_host_of_variadic? (hvalid : Valid d) (hbind : bind config d = .ok args) {arg : Arg}
    (harg : variadic? args = some arg) :
    ∃ host name access, d.hostArgs.getLast? = some host ∧ host.variadic = true ∧
      identifier host.name = .ok name ∧ arg = .read name access true := by
  have hd : endsWithSequence d = true := by
    rw [← isSome_variadic?_eq hvalid hbind, harg]
    rfl
  obtain ⟨_, text, cast, front, name, access, _, -, rfl, -, -, hbinds, -⟩ :=
    exists_split_of_endsWithSequence hvalid hbind hd
  rw [variadic?_concat] at harg
  obtain rfl : Arg.read name access true = arg := by simpa [Arg.isVariadic] using harg
  obtain ⟨host, hhost, hidentifier, hsequence⟩ := exists_identifier_of_binds_read hbinds
  have hlast := (Directive.variadicArg?_eq_some_iff hvalid.bare_before_last).2 ⟨hhost, hsequence⟩
  rw [Directive.variadicArg?, Option.filter_eq_some_iff] at hlast
  exact ⟨host, name, access, hlast.1, hsequence, hidentifier, rfl⟩

theorem bound_of_bind_eq_ok (hvalid : Valid d) (hvariadic : d.variadic = endsWithSequence d)
    (hbind : bind config d = .ok args) : Bound config d args where
  resolves := (binds_of_bind_eq_ok hbind).imp fun _ _ => Binds.resolves hvalid
  isVariadic_iff i arg harg := by
    rw [hvariadic]
    exact isVariadic_iff_of_getElem? hvalid hbind harg
  isSome_variadic? := by
    rw [hvariadic]
    exact isSome_variadic?_eq hvalid hbind
  reads_last arg harg := exists_host_of_variadic? hvalid hbind harg
  fixed_eq := fixed_append_variadic? args

end Call

/-! ## Methods -/

namespace Method

open Directive (Error HostArg OkOrInvalidCode okOrInvalidCode_mapM)
open Call (okOrInvalidCode_identifier okOrInvalidCode_typeAs)

variable {config : Config} {d : Directive} {args : List Call.Arg}

theorem okOrInvalidCode_paramOf (args : List Call.Arg) (arg : HostArg) :
    OkOrInvalidCode (paramOf args arg) :=
  (okOrInvalidCode_identifier _).bind fun _ _ =>
    (okOrInvalidCode_typeAs ..).bind fun _ _ => .ok _

theorem okOrInvalidCode_steps (config : Config) (function : String) (args : List Call.Arg)
    (receiver : HostArg) (receiverName : String) (hosts : List (HostArg × String)) :
    OkOrInvalidCode (steps config function args receiver receiverName hosts) := by
  unfold steps
  cases sequence? args with
  | none => exact .ok _
  | some sequence => exact (okOrInvalidCode_typeAs ..).bind fun _ _ => .ok _

/-- A method that has a receiver lacks nothing but code. -/
theorem okOrInvalidCode_ofCall (config : Config) (d : Directive) (args : List Call.Arg)
    (receiver : HostArg) (docs : List Doc) :
    OkOrInvalidCode (ofCall config d args receiver docs) :=
  (okOrInvalidCode_typeAs ..).bind fun _ _ =>
    (okOrInvalidCode_identifier _).bind fun _ _ =>
      (okOrInvalidCode_typeAs ..).bind fun _ _ =>
        (okOrInvalidCode_identifier _).bind fun _ _ =>
          (okOrInvalidCode_mapM fun arg _ => okOrInvalidCode_paramOf args arg).bind fun _ _ =>
            (okOrInvalidCode_identifier _).bind fun _ _ =>
              (okOrInvalidCode_steps ..).bind fun _ _ => .ok _

/-- **The directive of a line lacks nothing but code for its method.** It has a receiver, its call
is bound unless some text is no code, and then each argument of the call is what the directive says
it is, the sequence is the last one, and the method is there unless some text is no code. -/
theorem okOrInvalidCode_of_ofLine_eq_ok {line : String} (h : Directive.ofLine config line = .ok d) :
    OkOrInvalidCode (Call.bind config d) ∧
      ∃ receiver, d.receiver? = some receiver ∧ d.hostArgs = receiver :: d.params ∧
        ∀ args, Call.bind config d = .ok args →
          Call.Bound config d args ∧
            ∀ docs, ofDirective config d docs = ofCall config d args receiver docs ∧
              OkOrInvalidCode (ofCall config d args receiver docs) := by
  obtain ⟨hvalid, hvariadic⟩ := Directive.valid_of_ofLine_eq_ok h
  obtain ⟨receiver, hreceiver, hhosts⟩ := hvalid.exists_receiver
  refine ⟨Call.okOrInvalidCode_bind config hvalid, receiver, hreceiver, hhosts,
    fun args hbind => ?_⟩
  refine ⟨Call.bound_of_bind_eq_ok hvalid hvariadic hbind, fun docs => ⟨?_, ?_⟩⟩
  · simp only [ofDirective, hbind, hreceiver]
    rfl
  · exact okOrInvalidCode_ofCall config d args receiver docs

/-- A line with a cast, code and a sequence. -/
theorem exists_bound_of_apply_line :
    ∃ d args m,
      Directive.ofLine {} "//wrap:expr apply f n:u32 xs... : Z3_apply f n:c_uint \"0\" xs..." =
        .ok d ∧
      Call.bind {} d = .ok args ∧ Call.Bound {} d args ∧ (Call.variadic? args).isSome = true ∧
      ofDirective {} d [] = .ok m := by
  have hd : Directive.ofLine {}
      "//wrap:expr apply f n:u32 xs... : Z3_apply f n:c_uint \"0\" xs..." = .ok
        ⟨"apply", "Expr", [⟨"f", "Expr", false⟩, ⟨"n", "u32", false⟩, ⟨"xs", "Expr", true⟩],
          "Z3_apply", [.reference "f" none, .reference "n" (some "c_uint"), .literal "0",
            .reference "xs..." none], true, false⟩ := by decide +kernel
  obtain ⟨-, receiver, -, -, hbound⟩ := okOrInvalidCode_of_ofLine_eq_ok hd
  obtain ⟨m, -, hm⟩ := exists_ofLine_eq_ok hd [] (by decide +kernel)
  obtain ⟨args, hargs, -⟩ := bind_eq_ok_iff.1 hm
  have hargs' := (hbound args hargs).1
  exact ⟨_, args, m, hd, hargs, hargs', hargs'.isSome_variadic?, hm⟩

end Method

end ForeignWrap
