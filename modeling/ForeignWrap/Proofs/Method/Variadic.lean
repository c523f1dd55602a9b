import ForeignWrap.Proofs.Method.Hygiene
import ForeignWrap.Proofs.Method.Passing

/-!
# How a sequence is passed

A method that passes a sequence puts the fixed arguments of the call and then the elements of the
sequence into one array, and hands the foreign function the length of the array and where it
begins. However long the sequence is, each slot of the array is written once, with what the
directive asks for, before the function is called.

## Main definitions

* `ForeignWrap.Method.PlainNames`: names that do not get in the way of those of the body.
* `ForeignWrap.Method.Parts.PassesArray`: the body passes its arguments in one array.
* `ForeignWrap.Method.Parts.execAll_statements`: the run of the body.
* `ForeignWrap.Method.exists_run_of_variadic`: what is passed is what the directive asks for.
-/

namespace ForeignWrap.Method

open Code (Token word)
open Directive (HostArg ForeignArg Marked)
open Call (hostPlace identifier Binds)

variable {V : Type}

/-! ## Variables -/

/-- What the names of the arguments of a method are bound to, once the receiver has its name. -/
def hostBindings : (names : List String) → (hosts : List (Datum V)) → List (String × Datum V)
  | receiver :: params, self :: args => (receiver, self) :: (params.zip args).reverse
  | _, _ => []

/-- A name that no later argument has is bound to its own argument. -/
theorem lookup_hostBindings {names : List String} {hosts : List (Datum V)} {place : Nat}
    {name : String} {datum : Datum V} (hname : names[place]? = some name)
    (hhost : hosts[place]? = some datum) (hlatest : Latest names place) :
    lookup name (hostBindings names hosts) = some datum := by
  cases names with
  | nil => simp at hname
  | cons receiver params =>
    cases hosts with
    | nil => simp at hhost
    | cons self args =>
      cases place with
      | zero =>
        obtain rfl : receiver = name := by simpa using hname
        obtain rfl : self = datum := by simpa using hhost
        simp [hostBindings]
      | succ i =>
        obtain h | hlater := hlatest
        · cases h
        · have hreceiver : bareName receiver ≠ bareName name :=
            hlater 0 name receiver (.inl rfl) hname rfl
          rw [hostBindings, lookup, if_neg hreceiver, lookup_reverse_eq_some_iff]
          refine ⟨i, name, ?_, rfl, ?_⟩
          · rw [List.getElem?_zip_eq_some]
            exact ⟨by simpa using hname, by simpa using hhost⟩
          · intro j b hj hb
            have hparam := (List.getElem?_zip_eq_some.1 hb).1
            exact hlater (j + 1) name b.1 (.inr (by omega)) hname (by simpa using hparam)

theorem fst_mem_of_mem_hostBindings {names : List String} {hosts : List (Datum V)}
    {b : String × Datum V} (h : b ∈ hostBindings names hosts) : b.1 ∈ names := by
  cases names with
  | nil => simp [hostBindings] at h
  | cons receiver params =>
    cases hosts with
    | nil => simp [hostBindings] at h
    | cons self args =>
      rw [hostBindings, List.mem_cons, List.mem_reverse] at h
      obtain rfl | h := h
      · exact List.mem_cons_self
      · exact List.mem_cons_of_mem _ (List.of_mem_zip h).1

/-- The names that a directive may choose for the arguments of a method that passes a sequence. None
is raw, and none is that of the array; only a context that is the receiver is called `ctx`. -/
structure PlainNames (config : Config) (d : Directive) : Prop where
  identifier_eq : ∀ host ∈ d.hostArgs, identifier host.name = .ok host.name
  not_raw : ∀ host ∈ d.hostArgs, bareName host.name = host.name
  ne_array : ∀ host ∈ d.hostArgs, host.name ≠ "cargs"
  context_receiver : ∀ host ∈ d.hostArgs, host.name = "ctx" →
    d.receiver? = some host ∧ config.isContext host.type = true

namespace Parts

variable {config : Config} {d : Directive} {p : Parts config d}

theorem names_eq_map (hplain : PlainNames config d) : p.names = d.hostArgs.map (·.name) := by
  have hnames : d.hostArgs.mapM (fun host => identifier host.name) =
      .ok (d.hostArgs.map (·.name)) := by
    rw [mapM_eq_ok_iff, List.forall₂_map_right_iff, List.forall₂_same]
    exact hplain.identifier_eq
  exact p.names_eq_of_mapM hnames

theorem contextNames_eq_nil {receiver : HostArg} (hreceiver : d.receiver? = some receiver)
    (hcontext : config.isContext receiver.type = true) (hname : receiver.name = "ctx") :
    contextNames config d = [] := by
  simp [contextNames, hreceiver, hcontext, hname]

/-- Plain names can be seen where the array is bound. -/
theorem visible_of_plainNames (hvalid : Directive.Valid d) (hplain : PlainNames config d)
    (place : Nat) : p.Visible ["cargs"] place := by
  have hbare : ∀ host ∈ d.hostArgs, bareName host.name = host.name := hplain.not_raw
  have hnodup : (p.names.map bareName).Nodup := by
    have hsame : (d.hostArgs.map (·.name)).map bareName = d.hostArgs.map (·.name) :=
      (List.map_map ..).trans (List.map_congr_left hbare)
    rw [names_eq_map hplain, hsame]
    exact hvalid.names_nodup
  intro name hname
  refine ⟨latest_of_nodup hnodup place, ?_⟩
  rw [names_eq_map hplain, List.getElem?_map, Option.map_eq_some_iff] at hname
  obtain ⟨host, hget, rfl⟩ := hname
  have hhost := List.mem_of_getElem? hget
  rw [hbare host hhost, List.mem_append, List.mem_singleton]
  rintro (harray | hcontext)
  · exact hplain.ne_array host hhost harray
  · have hname : host.name = "ctx" := by simpa using contextNames_subset hcontext
    obtain ⟨hreceiver, htype⟩ := hplain.context_receiver host hhost hname
    rw [contextNames_eq_nil hreceiver htype hname] at hcontext
    simp at hcontext

/-- What the variables are bound to after the statements for the context. -/
def setupBindings (p : Parts config d) (context : V) (hosts : List (Datum V)) :
    List (String × Datum V) :=
  (contextNames config d).map (·, .value context) ++ hostBindings p.names hosts

theorem execAll_contextStmts {w : World V} {receiver : HostArg} {self : V} {args : List (Datum V)}
    {s : State V} (hreceiver : d.receiver? = some receiver) :
    execAll w (p.contextStmts receiver) (p.routine.start (.value self) args) s =
      some (⟨.value self, p.setupBindings (contextValue w config receiver self)
        (.value self :: args)⟩, s) := by
  obtain ⟨params, hnames⟩ := p.exists_names_eq_cons hreceiver
  have hbindings : (p.receiverName, Datum.value self) :: (p.names.tail.zip args).reverse =
      hostBindings p.names (.value self :: args) := by
    rw [hnames]
    rfl
  have hself : lookup p.receiverName (hostBindings p.names (.value self :: args)) =
      some (.value self) := by
    rw [← hbindings, lookup, if_pos rfl]
  have hstart : p.routine.start (.value self) args =
      ⟨.value self, (p.names.tail.zip args).reverse⟩ := rfl
  simp only [contextStmts, execAll, Stmt.exec, Expr.eval, hstart, Env.bind, hbindings, bind,
    Option.bind_some, setupBindings, contextNames, hreceiver, Option.elim, contextValue]
  by_cases hcontext : config.isContext receiver.type = true
  · by_cases hctx : receiver.name = "ctx"
    · simp [hcontext, hctx]
    · simp [hcontext, hctx, hself, Env.bind]
  · simp [hcontext, hself, Env.bind]

theorem lookup_ctx {w : World V} {receiver : HostArg} {self : V} {args : List (Datum V)}
    (hplain : PlainNames config d) (hreceiver : d.receiver? = some receiver) :
    lookup "ctx" (p.setupBindings (contextValue w config receiver self) (.value self :: args)) =
      some (.value (contextValue w config receiver self)) := by
  by_cases hown : config.isContext receiver.type = true ∧ receiver.name = "ctx"
  · obtain ⟨params, hnames⟩ := p.exists_names_eq_cons hreceiver
    have hname : p.receiverName = "ctx" := by
      have hhead := congrArg List.head? (names_eq_map (p := p) hplain)
      rw [List.head?_map, show d.hostArgs.head? = some receiver from hreceiver, hnames] at hhead
      simpa [hown.2] using hhead
    rw [setupBindings, contextNames_eq_nil hreceiver hown.1 hown.2, hnames, hname]
    simp [hostBindings, contextValue, hown.1]
  · have hctx : contextNames config d = ["ctx"] := by
      simpa [contextNames, hreceiver] using hown
    rw [setupBindings, hctx]
    simp

theorem fst_mem_of_mem_own {context : V} {locals : List (String × Datum V)} {b : String × Datum V}
    (h : b ∈ locals ++ (contextNames config d).map (·, .value context)) :
    b.1 ∈ locals.map Prod.fst ++ contextNames config d := by
  have hfst := List.mem_map_of_mem (f := Prod.fst) h
  rw [List.map_append, List.map_map] at hfst
  simpa [Function.comp_def] using hfst

/-- What can be seen below some variables of the body is bound to its own argument there. -/
theorem lookup_of_visible {context : V} {hosts : List (Datum V)} {locals : List (String × Datum V)}
    {place : Nat} {name : String} {datum : Datum V}
    (hlocals : locals.map Prod.fst ⊆ ["raw_ctx", "cargs", "ast"])
    (hvisible : p.Visible (locals.map Prod.fst) place) (hname : p.names[place]? = some name)
    (hhost : hosts[place]? = some datum) :
    lookup name (locals ++ p.setupBindings context hosts) = some datum := by
  obtain ⟨hlatest, hhidden⟩ := hvisible name hname
  rw [setupBindings, ← List.append_assoc, lookup_append_of_forall_ne]
  · exact lookup_hostBindings hname hhost hlatest
  · intro b hb hsame
    have hmem := fst_mem_of_mem_own hb
    rw [← hsame, bareName_eq_of_mem_locals hlocals hmem] at hhidden
    exact hhidden hmem

/-- What the variables are bound to once the array is bound too. -/
def arrayBindings (p : Parts config d) (context : V) (hosts : List (Datum V)) :
    List (String × Datum V) :=
  ("cargs", .array 0) :: p.setupBindings context hosts

@[simp] theorem lookup_cargs {context : V} {hosts : List (Datum V)} :
    lookup "cargs" (p.arrayBindings context hosts) = some (.array 0) := by
  rw [arrayBindings, lookup, if_pos rfl]

/-- A fixed argument of the call has a value that the directive asks for, and evaluating it does
nothing else. -/
theorem exists_argValue {w : World V} {context : V} {hosts : List (Datum V)} {elements : List V}
    {foreign : ForeignArg} {arg : Call.Arg} (self : Datum V) (s : State V)
    (hvalid : Directive.Valid d) (hplain : PlainNames config d)
    (hpassed : Passed d hosts elements) (hpiece : IsOnePiece foreign)
    (hyields : ∀ code tokens, foreign = .literal code → Syntax.tokensOf code = .ok tokens →
      w.Yields tokens)
    (hbinds : Binds config d foreign arg) (hfixed : arg.isVariadic = false) :
    ∃ v, ArgValue w config d hosts (lookup · (p.arrayBindings context hosts)) s foreign v ∧
      (argExpr d foreign arg).eval w ⟨self, p.arrayBindings context hosts⟩ s =
        some (.value v, s) := by
  cases arg with
  | literal tokens =>
    cases hbinds with
    | @literal code _ htokens =>
      obtain ⟨v, hv⟩ := hyields code tokens rfl htokens (lookup · (p.arrayBindings context hosts)) s
      refine ⟨v, .literal htokens hv, ?_⟩
      rw [argExpr, Expr.eval, if_pos (hpiece tokens htokens), World.runCode, hv]
      rfl
  | read name access variadic =>
    have hname := p.getElem?_names_of_binds hbinds
    cases hbinds with
    | @read text _ cast host _ hplace hbase haccess hidentifier =>
      obtain ⟨v, hv⟩ := hpassed.exists_single hplace hfixed
      have hlookup : lookup name ([("cargs", .array 0)] ++ p.setupBindings context hosts) =
          some (.value v) :=
        lookup_of_visible (by simp) (visible_of_plainNames hvalid hplain _) hname hv
      refine ⟨accessValue w v access, ?_, ?_⟩
      · exact .read (Directive.splitMarker_eq_iff.1 rfl) hplace hbase hv
          (readValue_of_accessOf_eq_ok haccess)
      · refine eval_accessExpr ?_ (isOnePieceAccess_of_accessOf_eq_ok hpiece haccess)
        rw [Expr.eval]
        exact congrArg (Option.map (·, s)) hlookup

/-- So do arguments of the call that stand one after the other and fill slots. -/
theorem exists_argValues {w : World V} {context : V} {hosts : List (Datum V)} {elements : List V}
    {self : Datum V} {length : Nat} {fixed : List ForeignArg} {front : List Call.Arg}
    (hvalid : Directive.Valid d) (hplain : PlainNames config d) (hpassed : Passed d hosts elements)
    (hpiece : ∀ foreign ∈ fixed, IsOnePiece foreign)
    (hyields : ∀ code tokens, .literal code ∈ fixed → Syntax.tokensOf code = .ok tokens →
      w.Yields tokens)
    (hbinds : List.Forall₂ (Binds config d) fixed front)
    (hsingle : ∀ arg ∈ front, arg.isVariadic = false) (done : List V) :
    ∃ values,
      ArgValues w config d hosts (lookup · (p.arrayBindings context hosts)) length done fixed
        values ∧
      HaveValues w ⟨self, p.arrayBindings context hosts⟩ length done
        ((fixed.zip front).map fun pair => argExpr d pair.1 pair.2) values := by
  induction hbinds generalizing done with
  | nil => exact ⟨[], .nil done, .nil done⟩
  | @cons foreign arg fixed front hbind _ ih =>
    rw [List.forall_mem_cons] at hpiece hsingle
    obtain ⟨v, hvalue, heval⟩ := exists_argValue self (filled w length done) hvalid hplain
      hpassed hpiece.1 (fun code tokens hcode => hyields code tokens (hcode ▸ List.mem_cons_self))
      hbind hsingle.1
    obtain ⟨values, hrest, hevals⟩ := ih hpiece.2
      (fun code tokens hcode => hyields code tokens (List.mem_cons_of_mem _ hcode)) hsingle.2
      (done ++ [v])
    exact ⟨v :: values, .cons hvalue hrest, .cons heval hevals⟩

/-- The fixed arguments of the call are those before the last. -/
theorem dropLast_argExprs {fixed : List ForeignArg} {last : ForeignArg} {front : List Call.Arg}
    {lastArg : Call.Arg} (hforeign : d.foreignArgs = fixed ++ [last])
    (hargs : p.args = front ++ [lastArg]) (hlength : fixed.length = front.length) :
    p.argExprs.dropLast = (fixed.zip front).map fun pair => argExpr d pair.1 pair.2 := by
  rw [argExprs, hforeign, hargs, List.zip_append hlength, List.map_append]
  exact List.dropLast_concat

/-- A name that neither a directive nor the body gives to a variable stands for something outside
where it is called. -/
theorem callee_eq_outside {name : String} {context : V} {hosts : List (Datum V)}
    {locals : List (String × Datum V)} (hplain : PlainNames config d)
    (hlocals : locals.map Prod.fst ⊆ ["raw_ctx", "cargs", "ast"])
    (hhosts : ∀ host ∈ d.hostArgs, host.name ≠ bareName name)
    (hown : bareName name ∉ locals.map Prod.fst ++ ["ctx"]) :
    callee name (locals ++ p.setupBindings context hosts) = .outside (word name) := by
  have hnone : lookup name (locals ++ p.setupBindings context hosts) = none := by
    rw [lookup_eq_none_iff]
    intro b hb hsame
    rw [setupBindings, ← List.append_assoc, List.mem_append] at hb
    obtain hb | hb := hb
    · have hmem := fst_mem_of_mem_own hb
      rw [bareName_eq_of_mem_locals hlocals hmem] at hsame
      rw [hsame] at hmem
      refine hown (List.mem_append.2 ((List.mem_append.1 hmem).imp_right fun h => ?_))
      exact contextNames_subset h
    · have hname := fst_mem_of_mem_hostBindings hb
      rw [names_eq_map hplain, List.mem_map] at hname
      obtain ⟨host, hhost, heq⟩ := hname
      refine hhosts host hhost ?_
      rw [← hsame, ← heq, hplain.not_raw host hhost]
  rw [callee, hnone]

/-! ## The run -/

variable {w : World V} {self : Datum V} {context : V} {hosts : List (Datum V)} {host : String}
  {meaning : Meaning} {elements values : List V}

/-- A turn of the loop puts what is read from the element into its slot. -/
theorem exec_loopBody {env : Env V} {bindings : List (String × Datum V)} {length fixed i : Nat}
    {v : V} {done : List V} (harray : lookup "cargs" bindings = some (.array 0))
    (henv : env = ⟨self, ("item", .value v) :: ("i", .count i) :: bindings⟩)
    (hdone : done.length = i + fixed) (hlength : done.length < length) {access : Call.Access}
    (haccess : IsOnePieceAccess access) :
    (Stmt.assign arrayExpr (.sum (.name "i" .own) (.number fixed))
        (accessExpr (.name "item" .own) access)).exec w env (filled w length done) =
      some (env, filled w length (done ++ [accessValue w v access])) := by
  have hi : bareName "i" = "i" := bareName_eq_of_mem (by simp)
  have hitem : bareName "item" = "item" := bareName_eq_of_mem (by simp)
  have hcargs : bareName "cargs" = "cargs" := bareName_eq_of_mem (by simp)
  have hread : (accessExpr (.name "item" .own) access).eval w env (filled w length done) =
      some (.value (accessValue w v access), filled w length done) :=
    eval_accessExpr (by simp [henv]) haccess
  have hslot : lookup "i" env.bindings = some (.count i) := by
    simp [henv, hi, hitem]
  have htarget : lookup "cargs" env.bindings = some (.array 0) := by
    simp [henv, hi, hitem, hcargs, harray]
  have hwrite : (filled w length done).write 0 (i + fixed) (accessValue w v access) =
      some (filled w length (done ++ [accessValue w v access])) := by
    rw [← hdone]
    exact write_filled hlength
  simp [hread, arrayExpr, hslot, htarget, hwrite]

/-- The loop puts what is read from the elements into the slots after the fixed arguments. -/
theorem exec_loop {length fixed : Nat} {sequence : Expr} {bindings : List (String × Datum V)}
    (harray : lookup "cargs" bindings = some (.array 0))
    (hsequence : ∀ s, sequence.eval w ⟨self, bindings⟩ s = some (.elements elements, s))
    (hfixed : values.length = fixed) (hlength : values.length + elements.length ≤ length)
    {access : Call.Access} (haccess : IsOnePieceAccess access) :
    (Stmt.forEach "i" "item" sequence (.assign arrayExpr (.sum (.name "i" .own) (.number fixed))
        (accessExpr (.name "item" .own) access))).exec w ⟨self, bindings⟩
          (filled w length values) =
      some (⟨self, bindings⟩,
        filled w length (values ++ elements.map (accessValue w · access))) := by
  rw [Stmt.exec, hsequence]
  refine congrArg (Option.map fun s => ((⟨self, bindings⟩ : Env V), s))
    (@forEachFrom_filled V w length _ (accessValue w · access) fixed 0 values elements
      (fun i v done hdone hlt => ?_) (by omega) hlength)
  exact congrArg (Option.map (·.2)) (exec_loopBody harray rfl hdone hlt haccess)

/-- The array is made as long as it has to be. -/
theorem exec_bindArray {fixed : Nat}
    (hbefore : lookup host (p.setupBindings context hosts) = some (.elements elements)) :
    (Stmt.bindArray "cargs" p.handleType (.nulls (.sum
        (.ask (.name host meaning) "len" []) (.number fixed)))).exec w
        ⟨self, p.setupBindings context hosts⟩ {} =
      some (⟨self, p.arrayBindings context hosts⟩, filled w (fixed + elements.length) []) := by
  simp [hbefore, allocate_eq_filled, Env.bind, arrayBindings, Nat.add_comm]

/-- The statements for the array make it as long as it has to be and fill all of it. -/
theorem execAll_arrayStmts
    (hbefore : lookup host (p.setupBindings context hosts) = some (.elements elements))
    (hafter : lookup host (p.arrayBindings context hosts) = some (.elements elements))
    (hvalues : HaveValues w ⟨self, p.arrayBindings context hosts⟩
      (values.length + elements.length) [] p.argExprs.dropLast values)
    {access : Call.Access} (haccess : IsOnePieceAccess access) :
    execAll w (p.arrayStmts (.name host meaning) access) ⟨self, p.setupBindings context hosts⟩ {} =
      some (⟨self, p.arrayBindings context hosts⟩,
        filled w (values.length + elements.length)
          (values ++ elements.map (accessValue w · access))) := by
  have hlength : p.argExprs.dropLast.length = values.length := hvalues.length_eq
  have hfill : execAll w (fillStmts p.argExprs.dropLast) ⟨self, p.arrayBindings context hosts⟩
      (filled w (values.length + elements.length) []) =
        some (⟨self, p.arrayBindings context hosts⟩,
          filled w (values.length + elements.length) values) := by
    have h := @execAll_fillStmts V w ⟨self, p.arrayBindings context hosts⟩
      (values.length + elements.length) _ [] values lookup_cargs hvalues (by simp)
    rw [List.nil_append] at h
    exact h
  have hsequence : ∀ s, (Expr.name host meaning).eval w
      ⟨self, p.arrayBindings context hosts⟩ s = some (.elements elements, s) := by
    intro s
    rw [Expr.eval, hafter]
    rfl
  have hloop := exec_loop lookup_cargs hsequence (rfl : values.length = _) (Nat.le_refl _) haccess
  rw [arrayStmts, List.cons_append, execAll, exec_bindArray hbefore, hlength]
  change execAll w (fillStmts p.argExprs.dropLast ++ _) _ _ = _
  rw [execAll_append hfill, execAll, hloop]
  rfl

/-- The foreign function is called with the array as it is, and then its result is wrapped. -/
theorem exec_callStmt {bindings : List (String × Datum V)} {s : State V} {slots : List V}
    {function : Callee V} (harray : lookup "cargs" bindings = some (.array 0))
    (hcontext : lookup "ctx" bindings = some (.value context)) (hs : s.arrays = [slots])
    (hfunction : callee p.function (("raw_ctx", .value (w.rawContext context)) :: bindings) =
      function) :
    (p.callStmt [.castLength (.ask arrayExpr "len" []), .ask arrayExpr "as_ptr" []]).exec w
        ⟨self, bindings⟩ s =
      some (⟨self, ("ast", .value (astValue w context function slots.length)) :: bindings⟩,
        { s with events := s.events ++
          [.called function (handed w context slots.length) [slots],
            .called (.outside (pathCode ["Ast", "wrap_locked"]))
              (wrapped w context function slots.length) [slots]] }) := by
  have hraw : bareName "raw_ctx" = "raw_ctx" := bareName_eq_of_mem (by simp)
  have hctx : bareName "ctx" = "ctx" := bareName_eq_of_mem (by simp)
  have hcargs : bareName "cargs" = "cargs" := bareName_eq_of_mem (by simp)
  have hcexpr : bareName "cexpr" = "cexpr" := bareName_eq_of_mem (by simp)
  simp [callStmt, contextExpr, arrayExpr, Env.bind, hraw, hctx, hcargs, hcexpr, harray, hcontext,
    hfunction, Env.calleeOf, State.call, hs, handed, wrapped, astValue]

/-- The array is kept alive after that. -/
theorem exec_keepArrayAlive {bindings : List (String × Datum V)} {s : State V}
    (harray : lookup "cargs" bindings = some (.array 0)) :
    (keepAliveStmt (.reference arrayExpr)).exec w ⟨self, bindings⟩ s =
      some (⟨self, bindings⟩,
        { s with events := s.events ++
          [.called (callee "keep_alive" bindings) [.array 0] s.arrays] }) := by
  simp [keepAliveStmt, arrayExpr, harray, Env.calleeOf, State.call]

/-- The statements of a body that passes a sequence. -/
theorem statements_eq {receiver : HostArg} {foreign : ForeignArg} {access : Call.Access}
    (hreceiver : d.receiver? = some receiver)
    (hsequence : Call.variadic? p.args = some (.read host access true))
    (hforeign : d.foreignArgs.getLast? = some foreign) :
    p.routine.statements = p.contextStmts receiver ++
      (p.arrayStmts (.name host (.host (hostPlace d foreign))) access ++
        [p.callStmt [.castLength (.ask arrayExpr "len" []), .ask arrayExpr "as_ptr" []],
          keepAliveStmt (.reference arrayExpr)]) := by
  simp only [routine, hreceiver, Option.elim, callStmts, hsequence, hforeign]

/-- The whole body runs: it fills the array, calls the function and keeps the array alive. -/
theorem execAll_statements {receiver : HostArg} {self : V} {args : List (Datum V)}
    {foreign : ForeignArg} {access : Call.Access} {slots : List V} {function keeper : Callee V}
    (hplain : PlainNames config d)
    (hreceiver : d.receiver? = some receiver)
    (hsequence : Call.variadic? p.args = some (.read host access true))
    (hforeign : d.foreignArgs.getLast? = some foreign)
    (hcontext : context = contextValue w config receiver self)
    (hhosts : hosts = .value self :: args)
    (hbefore : lookup host (p.setupBindings context hosts) = some (.elements elements))
    (hafter : lookup host (p.arrayBindings context hosts) = some (.elements elements))
    (hvalues : HaveValues w ⟨.value self, p.arrayBindings context hosts⟩
      (values.length + elements.length) [] p.argExprs.dropLast values)
    (haccess : IsOnePieceAccess access)
    (hslots : slots = values ++ elements.map (accessValue w · access))
    (hfunction : callee p.function
      (("raw_ctx", .value (w.rawContext context)) :: p.arrayBindings context hosts) = function)
    (hkeeper : callee "keep_alive" (("ast", .value (astValue w context function slots.length)) ::
      p.arrayBindings context hosts) = keeper) :
    execAll w p.routine.statements (p.routine.start (.value self) args) {} =
      some (⟨.value self, ("ast", .value (astValue w context function slots.length)) ::
        p.arrayBindings context hosts⟩,
          { arrays := [slots], events := passEvents w context function keeper slots }) := by
  have hlength : slots.length = values.length + elements.length := by
    rw [hslots, List.length_append, List.length_map]
  have hctx : lookup "ctx" (p.arrayBindings context hosts) = some (.value context) := by
    have hne : bareName "cargs" ≠ bareName "ctx" := by
      rw [bareName_eq_of_mem (by simp), bareName_eq_of_mem (by simp)]
      decide
    rw [arrayBindings, lookup, if_neg hne, hhosts, hcontext]
    exact lookup_ctx hplain hreceiver
  have hfilled : execAll w (p.arrayStmts (.name host (.host (hostPlace d foreign))) access)
      ⟨.value self, p.setupBindings context hosts⟩ {} =
        some (⟨.value self, p.arrayBindings context hosts⟩, filled w slots.length slots) := by
    rw [hlength, hslots]
    exact execAll_arrayStmts hbefore hafter hvalues haccess
  have hcall := @exec_callStmt V config d p w (.value self) context _
    (filled w slots.length slots) slots function lookup_cargs hctx arrays_filled hfunction
  have harray : lookup "cargs" (("ast", Datum.value (astValue w context function slots.length)) ::
      p.arrayBindings context hosts) = some (.array 0) := by
    have hne : bareName "ast" ≠ bareName "cargs" := by
      rw [bareName_eq_of_mem (by simp), bareName_eq_of_mem (by simp)]
      decide
    rw [lookup, if_neg hne]
    exact lookup_cargs
  have hsetup : execAll w (p.contextStmts receiver) (p.routine.start (.value self) args) {} =
      some (⟨.value self, p.setupBindings context hosts⟩, {}) := by
    rw [hcontext, hhosts]
    exact execAll_contextStmts hreceiver
  rw [statements_eq hreceiver hsequence hforeign, execAll_append hsetup, execAll_append hfilled,
    execAll, hcall]
  simp only [bind, Option.bind_some, execAll, exec_keepArrayAlive harray, hkeeper,
    arrays_filled, List.append_assoc]
  rfl

/-- The body of a method that is called on `object` passes `values` for the fixed arguments of the
call and then `rest` for the elements of the sequence, all in one array. What is called is outside
of the method unless a variable has its name. -/
structure PassesArray (p : Parts config d) (w : World V) (receiver sequence : HostArg)
    (fixed : List ForeignArg) (cast : Option String) (object : V) (args : List (Datum V))
    (elements values rest : List V) (function keeper : Callee V) : Prop where
  /-- The array is made, filled, passed and kept alive, and nothing else happens. -/
  run : ∃ env, execAll w p.routine.statements (p.routine.start (.value object) args) {} =
    some (env, {
      arrays := [values ++ rest]
      events := passEvents w (contextValue w config receiver object) function keeper
        (values ++ rest) })
  fixed_values : ArgValues w config d (.value object :: args)
    (lookup · (p.arrayBindings (contextValue w config receiver object) (.value object :: args)))
    (values ++ rest).length [] fixed values
  rest_values : List.Forall₂ (fun v value => ReadValue w config sequence v cast value) elements rest
  length_eq : (values ++ rest).length = fixed.length + elements.length
  /-- The foreign function is told this length, as far as it can be. -/
  count_eq : fixed.length + elements.length < UInt32.size →
    (UInt32.ofNat (values ++ rest).length).toNat = fixed.length + elements.length
  function_outside : (∀ host ∈ d.hostArgs, host.name ≠ bareName p.function) →
    bareName p.function ∉ ["raw_ctx", "cargs", "ctx"] → function = .outside (word p.function)
  keeper_outside : (∀ host ∈ d.hostArgs, host.name ≠ "keep_alive") →
    keeper = .outside (word "keep_alive")

end Parts

/-- **A sequence is passed as one array**: whatever its elements are, the array has one slot for
each fixed argument of the call and each element, every slot is written once and in order with what
the directive asks for, and the foreign function is handed the raw context, the length of the array
and where it begins. What the directive holds must be one piece where it is put, and its literals
must come to values and leave the array alone: they are code of the method. -/
theorem exists_run_of_variadic {config : Config} {line : String} {docs : List Doc} {d : Directive}
    {m : Method} (hline : Directive.ofLine config line = .ok d)
    (hmethod : ofDirective config d docs = .ok m) (hvariadic : d.variadic = true)
    (hplain : PlainNames config d) (hpiece : ∀ foreign ∈ d.foreignArgs, IsOnePiece foreign) :
    ∃ (p : Parts config d) (receiver sequence : HostArg) (fixed : List ForeignArg) (text : String)
      (cast : Option String),
      p.routine.tokens = m.body.code ∧ p.routine.params = m.params.map (·.name) ∧
      d.receiver? = some receiver ∧ d.foreignArgs = fixed ++ [.reference text cast] ∧
      sequence ∈ d.hostArgs ∧ sequence.variadic = true ∧ Marked text sequence.name true ∧
      ∀ {V : Type} (w : World V) (self : V) (args : List (Datum V)) (elements : List V),
        (∀ code tokens, .literal code ∈ d.foreignArgs → Syntax.tokensOf code = .ok tokens →
          w.Yields tokens) →
        Passed d (.value self :: args) elements →
        ∃ values rest function keeper, p.PassesArray w receiver sequence fixed cast self args
          elements values rest function keeper := by
  obtain ⟨hvalid, hends⟩ := Directive.valid_of_ofLine_eq_ok hline
  rw [hends] at hvariadic
  obtain ⟨p, hcode, hparams⟩ := exists_parts_of_ofDirective_eq_ok hmethod
  obtain ⟨receiver, hreceiver, -⟩ := hvalid.exists_receiver
  obtain ⟨fixed, text, cast, front, name, access, sequence, hforeign, hargs, hfront, hsingle, hlast,
    hplace, hsequence, hmarked, haccess⟩ :=
    Call.exists_split_of_endsWithSequence hvalid p.bind_eq hvariadic
  refine ⟨p, receiver, sequence, fixed, text, cast, hcode, hparams, hreceiver, hforeign,
    List.mem_of_getElem? hplace, hsequence, hmarked,
    fun {V} w self args elements hyields hpassed => ?_⟩
  have hmem : ∀ foreign ∈ fixed, foreign ∈ d.foreignArgs := by
    rw [hforeign]
    exact fun foreign => List.mem_append_left _
  obtain ⟨values, hfixed, hvalues⟩ :=
    @Parts.exists_argValues V config d p w (contextValue w config receiver self) _ _ (.value self)
      (fixed.length + elements.length) _ _ hvalid hplain hpassed
      (fun foreign h => hpiece foreign (hmem foreign h))
      (fun code tokens h => hyields code tokens (hmem _ h)) hfront hsingle []
  rw [← Parts.dropLast_argExprs hforeign hargs hfront.length_eq, hfixed.length_eq] at hvalues
  have hname := p.getElem?_names_of_binds hlast
  have helements := hpassed.sequence hplace hsequence
  have hread : Call.variadic? p.args = some (.read name access true) := by
    rw [hargs, Call.variadic?_concat]
    rfl
  have hvisible : p.Visible ["cargs"] (hostPlace d (.reference text cast)) :=
    Parts.visible_of_plainNames hvalid hplain _
  have hbefore : lookup name (p.setupBindings (contextValue w config receiver self)
      (.value self :: args)) = some (.elements elements) :=
    @Parts.lookup_of_visible V config d p _ _ [] _ _ _ (by simp) hvisible.of_cons hname helements
  have hafter : lookup name (p.arrayBindings (contextValue w config receiver self)
      (.value self :: args)) = some (.elements elements) :=
    @Parts.lookup_of_visible V config d p _ _ [("cargs", .array 0)] _ _ _ (by simp) hvisible hname
      helements
  have hpieceLast : IsOnePiece (.reference text cast) := hpiece _ (by rw [hforeign]; simp)
  have hrun := Parts.execAll_statements hplain hreceiver hread
    (by rw [hforeign, List.getLast?_concat]) rfl rfl hbefore hafter hvalues
    (isOnePieceAccess_of_accessOf_eq_ok hpieceLast haccess) rfl rfl rfl
  have hlength : (values ++ elements.map (accessValue w · access)).length =
      fixed.length + elements.length := by
    rw [List.length_append, List.length_map, hfixed.length_eq]
  exact ⟨values, elements.map (accessValue w · access), _, _, {
    run := ⟨_, hrun⟩
    fixed_values := by
      rw [hlength]
      exact hfixed
    rest_values := by
      rw [List.forall₂_map_right_iff, List.forall₂_same]
      exact fun v _ => readValue_of_accessOf_eq_ok haccess
    length_eq := hlength
    count_eq := by
      intro hlt
      rw [hlength]
      exact UInt32.toNat_ofNat_of_lt hlt
    function_outside := by
      intro hhosts hown
      exact @Parts.callee_eq_outside V config d p _ _ _ [("raw_ctx", _), ("cargs", _)] hplain
        (by simp) hhosts hown
    keeper_outside := by
      intro hhosts
      have hbare : bareName "keep_alive" = "keep_alive" := Parts.bareName_eq_of_mem (by simp)
      exact @Parts.callee_eq_outside V config d p _ _ _ [("ast", _), ("cargs", _)] hplain
        (by simp) (by rw [hbare]; exact hhosts) (by simp [hbare]) }⟩

/-- A world in which code comes to a value and does nothing else. -/
def World.still : World Nat where
  ask v _ _ := v + 1
  cast v _ := v
  code _ _ s := some (7, s)
  item _ := 1
  answer _ args := args.length
  rawContext v := v
  null := 0

/-- An argument that is cast, a literal and a sequence of any length: two slots come before the
sequence. -/
theorem exists_run_of_literal_and_sequence :
    ∃ d m, ∃ p : Parts {} d,
      Directive.ofLine {} "//wrap:expr f x n:u32 rest... : Z3_f n:c_uint \"0\" rest..." = .ok d ∧
      ofDirective {} d [] = .ok m ∧ p.routine.tokens = m.body.code ∧
      (∀ foreign ∈ d.foreignArgs, IsOnePiece foreign) ∧
      ∀ (self n : Nat) (elements : List Nat), ∃ slots env s,
        execAll World.still p.routine.statements
            (p.routine.start (.value self) [.value n, .elements elements]) {} = some (env, s) ∧
        s.arrays = [slots] ∧ slots.length = 2 + elements.length := by
  obtain ⟨d, hd⟩ : ∃ d, d = (⟨"f", "Expr",
    [⟨"x", "Expr", false⟩, ⟨"n", "u32", false⟩, ⟨"rest", "Expr", true⟩], "Z3_f",
    [.reference "n" (some "c_uint"), .literal "0", .reference "rest..." none], true, false⟩ :
      Directive) := ⟨_, rfl⟩
  have hline : Directive.ofLine {} "//wrap:expr f x n:u32 rest... : Z3_f n:c_uint \"0\" rest..." =
      .ok d := by
    rw [hd]
    decide +kernel
  have hwrap : (ofDirective {} d []).toBool = true := by
    rw [hd]
    decide +kernel
  obtain ⟨m, hmethod⟩ := exists_eq_ok_of_toBool hwrap
  have hhosts : d.hostArgs =
      [⟨"x", "Expr", false⟩, ⟨"n", "u32", false⟩, ⟨"rest", "Expr", true⟩] := by rw [hd]
  have hplain : PlainNames {} d := by
    refine ⟨?_, ?_, ?_, ?_⟩
    · rw [hhosts]
      decide +kernel
    · rw [hhosts]
      decide +kernel
    · simp [hhosts]
    · simp [hhosts]
  have hpiece : ∀ foreign ∈ d.foreignArgs, IsOnePiece foreign := by
    rw [hd]
    exact List.forall_mem_cons.2 ⟨isOnePiece_cast (by decide +kernel),
      List.forall_mem_cons.2 ⟨isOnePiece_literal (by decide +kernel),
        List.forall_mem_singleton.2 trivial⟩⟩
  obtain ⟨p, receiver, sequence, fixed, text, cast, hcode, -, -, hforeign, -, -, -, hrun⟩ :=
    exists_run_of_variadic hline hmethod (by rw [hd]) hplain hpiece
  have hfixed : fixed.length = 2 := by
    have hlength := congrArg List.length hforeign
    rw [hd, List.length_append, List.length_singleton] at hlength
    exact (Nat.succ.inj hlength).symm
  refine ⟨d, m, p, hline, hmethod, hcode, hpiece, fun self n elements => ?_⟩
  have hpassed : Passed d [.value self, .value n, .elements elements] elements := by
    rw [Passed, hhosts]
    exact .cons (.single self rfl) (.cons (.single n rfl) (.cons (.sequence rfl) .nil))
  obtain ⟨values, rest, function, keeper, hpasses⟩ :=
    hrun World.still self [.value n, .elements elements] elements
      (fun _ _ _ _ _ s => ⟨7, rfl⟩) hpassed
  obtain ⟨env, hexec⟩ := hpasses.run
  exact ⟨values ++ rest, env, _, hexec, rfl, by rw [hpasses.length_eq, hfixed]⟩

/-- A world in which code empties the arrays, as `cargs.clear()` does. -/
def World.emptying : World Nat :=
  { World.still with code := fun _ _ s => some (7, { s with arrays := s.arrays.map fun _ => [] }) }

/-- What code comes to that empties the arrays cannot be put into a slot: code is evaluated before
its slot is looked for. -/
theorem Parts.exec_assign_emptying {config : Config} {d : Directive} {p : Parts config d}
    {self : Datum Nat} {context : Nat} {hosts : List (Datum Nat)} {tokens : List Token}
    {slot length : Nat} {done : List Nat} (hone : isExpression tokens = true) :
    (Stmt.assign arrayExpr (.number slot) (.code tokens)).exec World.emptying
      ⟨self, p.arrayBindings context hosts⟩ (filled World.emptying length done) = none := by
  simp [hone, World.runCode, World.emptying, filled, arrayExpr, State.write]

/-- A literal is code of the method, which can empty the array: its value has no slot then. -/
theorem exists_no_run_of_clearing_literal :
    ∃ d m, ∃ p : Parts {} d,
      Directive.ofLine {}
          "//wrap:expr f x rest... : Z3_f \"{ cargs.clear(); std::ptr::null_mut() }\" rest..." =
        .ok d ∧
      ofDirective {} d [] = .ok m ∧ p.routine.tokens = m.body.code ∧ d.variadic = true ∧
      PlainNames {} d ∧ (∀ foreign ∈ d.foreignArgs, IsOnePiece foreign) ∧
      ∀ (self : Nat) (elements : List Nat), Passed d [.value self, .elements elements] elements ∧
        execAll World.emptying p.routine.statements
          (p.routine.start (.value self) [.elements elements]) {} = none := by
  obtain ⟨d, hd⟩ : ∃ d, d = (⟨"f", "Expr", [⟨"x", "Expr", false⟩, ⟨"rest", "Expr", true⟩], "Z3_f",
    [.literal "{ cargs.clear(); std::ptr::null_mut() }", .reference "rest..." none], true,
    false⟩ : Directive) := ⟨_, rfl⟩
  have hline : Directive.ofLine {}
      "//wrap:expr f x rest... : Z3_f \"{ cargs.clear(); std::ptr::null_mut() }\" rest..." =
        .ok d := by
    rw [hd]
    decide +kernel
  have hwrap : (ofDirective {} d []).toBool = true := by
    rw [hd]
    decide +kernel
  obtain ⟨m, hmethod⟩ := exists_eq_ok_of_toBool hwrap
  have hhosts : d.hostArgs = [⟨"x", "Expr", false⟩, ⟨"rest", "Expr", true⟩] := by rw [hd]
  have hplain : PlainNames {} d := by
    refine ⟨?_, ?_, ?_, ?_⟩
    · rw [hhosts]
      decide +kernel
    · rw [hhosts]
      decide +kernel
    · simp [hhosts]
    · simp [hhosts]
  have hpiece : ∀ foreign ∈ d.foreignArgs, IsOnePiece foreign := by
    rw [hd]
    exact List.forall_mem_cons.2 ⟨isOnePiece_literal (by decide +kernel),
      List.forall_mem_singleton.2 trivial⟩
  obtain ⟨hvalid, hends⟩ := Directive.valid_of_ofLine_eq_ok hline
  have hvariadic : d.variadic = true := by rw [hd]
  obtain ⟨p, hcode, -⟩ := exists_parts_of_ofDirective_eq_ok hmethod
  refine ⟨d, m, p, hline, hmethod, hcode, hvariadic, hplain, hpiece, fun self elements => ?_⟩
  have hpassed : Passed d [.value self, .elements elements] elements := by
    rw [Passed, hhosts]
    exact .cons (.single self rfl) (.cons (.sequence rfl) .nil)
  refine ⟨hpassed, ?_⟩
  have hreceiver : d.receiver? = some ⟨"x", "Expr", false⟩ := by rw [hd]; rfl
  rw [hends] at hvariadic
  obtain ⟨fixed, text, cast, front, name, access, sequence, hforeign, hargs, hfront, -, hlast,
    hplace, hsequence, -, -⟩ := Call.exists_split_of_endsWithSequence hvalid p.bind_eq hvariadic
  have hsplit : fixed ++ [.reference text cast] =
      [.literal "{ cargs.clear(); std::ptr::null_mut() }"] ++ [.reference "rest..." none] := by
    rw [← hforeign, hd]
    rfl
  obtain ⟨rfl, -⟩ := List.append_inj' hsplit rfl
  have hread : Call.variadic? p.args = some (.read name access true) := by
    rw [hargs, Call.variadic?_concat]
    rfl
  have hvisible : p.Visible ["cargs"] (hostPlace d (.reference text cast)) :=
    Parts.visible_of_plainNames hvalid hplain _
  have hbefore : lookup name (p.setupBindings (contextValue World.emptying {} ⟨"x", "Expr", false⟩
      self) [.value self, .elements elements]) = some (.elements elements) :=
    @Parts.lookup_of_visible _ _ d p _ _ [] _ _ _ (by simp) hvisible.of_cons
      (p.getElem?_names_of_binds hlast) (hpassed.sequence hplace hsequence)
  cases hfront with
  | cons hliteral hnone =>
    cases hnone
    cases hliteral with
    | @literal _ tokens htokens =>
      have hone : isExpression tokens = true :=
        hpiece (.literal "{ cargs.clear(); std::ptr::null_mut() }") (by simp [hforeign]) tokens
          htokens
      have hexprs : p.argExprs.dropLast = [.code tokens] :=
        Parts.dropLast_argExprs hforeign hargs rfl
      rw [Parts.statements_eq hreceiver hread (by rw [hforeign, List.getLast?_concat]),
        execAll_append (Parts.execAll_contextStmts hreceiver), Parts.arrayStmts, List.cons_append,
        List.cons_append, execAll, Parts.exec_bindArray hbefore, hexprs]
      simp [-Stmt.exec, fillStmts, Parts.exec_assign_emptying hone]

end ForeignWrap.Method
