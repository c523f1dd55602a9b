import ForeignWrap.Proofs.Directive.Grammar
import ForeignWrap.Proofs.Method.Scope

/-!
# Which names are safe for a directive

The body of a method binds variables of its own: `ctx` for the context, `cargs` for the array,
`raw_ctx` under the lock, `ast` for the result, and a few that nothing of the directive is read
under. An argument of the method with one of these names is hidden from there on, and what the body
reads by that name is another value. This says for which names that happens.

## Main definitions

* `ForeignWrap.Method.contextNames`: the variable for the context, if the body binds one.
* `ForeignWrap.Method.Parts.Visible`: an argument of the method is not hidden.
* `ForeignWrap.Method.Parts.NamesClear`: what is read is not hidden, and what is called is no
  argument.
* `ForeignWrap.Method.hygienic_iff_namesClear`: exactly then, all names stand for what they are
  meant for.
-/

namespace ForeignWrap.Method

open Directive (HostArg ForeignArg)
open Call (hostPlace identifier)

/-- The variable that the body binds to the context. There is none if the receiver is a context that
has this name already. -/
def contextNames (config : Config) (d : Directive) : List String :=
  d.receiver?.elim [] fun receiver =>
    if config.isContext receiver.type && receiver.name = "ctx" then [] else ["ctx"]

namespace Parts

variable {config : Config} {d : Directive} (p : Parts config d)

/-- What can be seen in the body where it has bound some variables after the context. -/
def scopeWith (locals : List String) : Scope :=
  (locals ++ contextNames config d).map (·, .own) ++ hostScope p.names

/-- The argument of the method at a place can be seen where the body has bound some variables after
the context: they have other names, and so have the arguments that are named later. -/
def Visible (locals : List String) (place : Nat) : Prop :=
  ∀ name, p.names[place]? = some name →
    Latest p.names place ∧ bareName name ∉ locals ++ contextNames config d

/-- A name stands for no argument of the method where the body has bound some variables after the
context. -/
def Outside (locals : List String) (name : String) : Prop :=
  bareName name ∈ locals ++ contextNames config d ∨
    ∀ host ∈ p.names, bareName host ≠ bareName name

/-- The names of a directive do not get in the way of those of the body, nor these in theirs. -/
structure NamesClear : Prop where
  /-- What the call reads is read where the array is bound, or under the lock if there is none. -/
  read_visible : ∀ text cast, .reference text cast ∈ d.foreignArgs →
    p.Visible (if d.variadic then ["cargs"] else ["raw_ctx"])
      (hostPlace d (.reference text cast))
  /-- What is kept alive is read after the call. -/
  kept_visible : d.variadic = false → ∀ (place : Nat) (host : HostArg),
    d.hostArgs[place]? = some host → isRetained config p.args host = true →
      p.Visible ["ast"] place
  function_outside : p.Outside (if d.variadic then ["raw_ctx", "cargs"] else ["raw_ctx"]) p.function
  keepAlive_outside : (d.variadic = true ∨ ∃ host ∈ d.hostArgs,
    isRetained config p.args host = true) → ∀ host ∈ p.names, bareName host ≠ "keep_alive"

/-! ## What can be seen -/

/-- No name that the body has of its own is a raw one. -/
theorem bareName_eq_of_mem {own : String}
    (h : own ∈ ["ctx", "raw_ctx", "cargs", "i", "item", "cexpr", "ast", "keep_alive"]) :
    bareName own = own := by
  simp only [List.mem_cons, List.not_mem_nil, or_false] at h
  obtain rfl | rfl | rfl | rfl | rfl | rfl | rfl | rfl := h <;> decide +kernel

theorem contextNames_subset : contextNames config d ⊆ ["ctx"] := by
  unfold contextNames
  cases d.receiver? with
  | none => simp
  | some receiver =>
    simp only [Option.elim]
    split <;> simp

variable {p} {locals : List String} {name : String} {place : Nat}

theorem bareName_eq_of_mem_locals (hlocals : locals ⊆ ["raw_ctx", "cargs", "ast"]) {own : String}
    (h : own ∈ locals ++ contextNames config d) : bareName own = own := by
  refine bareName_eq_of_mem ?_
  obtain hown | hown := List.mem_append.1 h
  · have hown := hlocals hown
    simp only [List.mem_cons, List.not_mem_nil, or_false] at hown ⊢
    tauto
  · have hown := contextNames_subset hown
    simp only [List.mem_cons, List.not_mem_nil, or_false] at hown ⊢
    tauto

theorem lookup_scopeWith (hlocals : locals ⊆ ["raw_ctx", "cargs", "ast"]) :
    lookup name (p.scopeWith locals) =
      if bareName name ∈ locals ++ contextNames config d then some .own
      else lookup name (hostScope p.names) := by
  have hbare : (locals ++ contextNames config d).map bareName =
      locals ++ contextNames config d :=
    (List.map_congr_left fun own hown => bareName_eq_of_mem_locals hlocals hown).trans
      (List.map_id _)
  rw [scopeWith, lookup_own_append, hbare]

theorem resolves_host_iff (hlocals : locals ⊆ ["raw_ctx", "cargs", "ast"])
    (hname : p.names[place]? = some name) :
    (p.scopeWith locals).Resolves name (.host place) ↔ p.Visible locals place := by
  have hvisible : p.Visible locals place ↔
      Latest p.names place ∧ bareName name ∉ locals ++ contextNames config d := by
    rw [Visible, hname]
    simp
  rw [hvisible, Scope.Resolves, Scope.meaning, lookup_scopeWith hlocals]
  by_cases hhidden : bareName name ∈ locals ++ contextNames config d
  · simp [hhidden]
  · rw [if_neg hhidden, ← lookup_hostScope_eq_some_iff hname]
    cases lookup name (hostScope p.names) <;> simp [hhidden]

theorem resolves_outside_iff (hlocals : locals ⊆ ["raw_ctx", "cargs", "ast"]) :
    (p.scopeWith locals).Resolves name .outside ↔ p.Outside locals name := by
  rw [Outside, Scope.Resolves, Scope.meaning, lookup_scopeWith hlocals]
  by_cases hhidden : bareName name ∈ locals ++ contextNames config d
  · simp [hhidden]
  · simp only [hhidden, ↓reduceIte, false_or, forall_lookup_hostScope_ne_iff]

/-! ## The arguments of the call -/

theorem binds_of_mem_zip {foreign : ForeignArg} {arg : Call.Arg}
    (h : (foreign, arg) ∈ d.foreignArgs.zip p.args) : Call.Binds config d foreign arg :=
  List.forall₂_zip (Call.binds_of_bind_eq_ok p.bind_eq) h

theorem exists_mem_zip {foreign : ForeignArg} (h : foreign ∈ d.foreignArgs) :
    ∃ arg, (foreign, arg) ∈ d.foreignArgs.zip p.args := by
  have hfst : (d.foreignArgs.zip p.args).map Prod.fst = d.foreignArgs :=
    List.map_fst_zip (Nat.le_of_eq p.length_args)
  rw [← hfst] at h
  obtain ⟨⟨_, arg⟩, hmem, rfl⟩ := List.mem_map.1 h
  exact ⟨arg, hmem⟩

/-- The arguments of the call read what they are meant to read exactly if that can be seen. -/
theorem resolved_argExprs_iff (hlocals : locals ⊆ ["raw_ctx", "cargs", "ast"]) :
    (∀ e ∈ p.argExprs, e.Resolved (p.scopeWith locals)) ↔
      ∀ text cast, .reference text cast ∈ d.foreignArgs →
        p.Visible locals (hostPlace d (.reference text cast)) := by
  have hpair : ∀ pair ∈ d.foreignArgs.zip p.args,
      ((argExpr d pair.1 pair.2).Resolved (p.scopeWith locals) ↔
        ∀ text cast, pair.1 = .reference text cast → p.Visible locals (hostPlace d pair.1)) := by
    rintro ⟨foreign, arg⟩ hmem
    have hbinds := binds_of_mem_zip hmem
    cases arg with
    | literal code =>
      cases hbinds
      simp [argExpr]
    | read host access variadic =>
      rw [argExpr, resolved_accessExpr_iff, Expr.Resolved,
        resolves_host_iff hlocals (p.getElem?_names_of_binds hbinds)]
      cases hbinds
      simp
  constructor
  · intro h text cast hforeign
    obtain ⟨arg, hmem⟩ := exists_mem_zip (p := p) hforeign
    exact (hpair _ hmem).1 (h _ (List.mem_map_of_mem hmem)) text cast rfl
  · intro h e he
    obtain ⟨⟨foreign, arg⟩, hmem, rfl⟩ := List.mem_map.1 he
    refine (hpair _ hmem).2 fun text cast hforeign => ?_
    obtain rfl : foreign = .reference text cast := hforeign
    exact h text cast (List.of_mem_zip hmem).1

theorem eq_nil_of_separated_eq_nil {pieces : List (List Code.Token)} {piece : List Code.Token}
    (h : Code.separated (Code.op ",") pieces = []) (hpiece : piece ∈ pieces) : piece = [] := by
  cases pieces with
  | nil => simp at hpiece
  | cons first rest =>
    cases rest with
    | nil =>
      obtain rfl := List.mem_singleton.1 hpiece
      exact h
    | cons next rest => simp [Code.separated, Code.op, Code.opSigns] at h

theorem code_access_ne_nil (access : Call.Access) (name : String) : access.code name ≠ [] := by
  cases access <;> simp [Call.Access.code, Code.word]

/-- Arguments that are left out, since no code is left of them, read nothing. -/
theorem resolved_callExprs_iff {scope : Scope} :
    (∀ e ∈ p.callExprs, e.Resolved scope) ↔ ∀ e ∈ p.argExprs, e.Resolved scope := by
  unfold callExprs
  cases hcode : (CallArgs.each p.args).code with
  | cons first rest => rfl
  | nil =>
    refine iff_of_true (by simp) fun e he => ?_
    obtain ⟨⟨foreign, arg⟩, hmem, rfl⟩ := List.mem_map.1 he
    cases arg with
    | literal code => trivial
    | read host access variadic =>
      have hcodes : access.code host ∈ p.args.map (·.code) :=
        List.mem_map.2 ⟨_, (List.of_mem_zip hmem).2, rfl⟩
      exact absurd (eq_nil_of_separated_eq_nil hcode hcodes) (code_access_ne_nil access host)

/-! ## The statements of the body -/

@[simp] theorem resolves_own {scope : Scope} {name : String} : scope.Resolves name .own :=
  trivial

/-- After the receiver and the context have their names, these can be seen. What is read for them
is the receiver, right after it is named. -/
theorem resolvedFrom_contextStmts_iff {receiver : HostArg} {answer : Expr} {rest : List Stmt}
    (hreceiver : d.receiver? = some receiver) :
    ResolvedFrom (paramScope p.names.tail) answer (p.contextStmts receiver ++ rest) ↔
      ResolvedFrom (p.scopeWith []) answer rest := by
  obtain ⟨params, hnames⟩ := p.exists_names_eq_cons hreceiver
  have hself : Scope.Resolves (hostScope p.names) p.receiverName (.host 0) := by
    rw [hnames, Scope.Resolves, Scope.meaning, hostScope, lookup, if_pos rfl]
    rfl
  have hscope : (p.receiverName, Meaning.host 0) :: paramScope p.names.tail =
      hostScope p.names := by
    rw [hnames]
    rfl
  rw [contextStmts, List.cons_append, ResolvedFrom, Stmt.scopeAfter, hscope, scopeWith,
    contextNames, hreceiver]
  simp only [Stmt.Resolved, Expr.Resolved, true_and, Option.elim, List.nil_append]
  by_cases hcontext : config.isContext receiver.type = true
  · by_cases hctx : receiver.name = "ctx"
    · simp [hcontext, hctx]
    · simp [hcontext, hctx, hself, Stmt.scopeAfter]
  · simp [hcontext, hself, Stmt.scopeAfter]

/-- Only the function that is called and its arguments are not variables of the body. -/
theorem resolvedFrom_callStmt_iff {args : List Expr} {answer : Expr} {rest : List Stmt} :
    ResolvedFrom (p.scopeWith locals) answer (p.callStmt args :: rest) ↔
      ((p.scopeWith ("raw_ctx" :: locals)).Resolves p.function .outside ∧
        ∀ e ∈ args, e.Resolved (p.scopeWith ("raw_ctx" :: locals))) ∧
      ResolvedFrom (p.scopeWith ("ast" :: locals)) answer rest := by
  simp only [ResolvedFrom, callStmt, Stmt.Resolved, Expr.Resolved, AllResolved, contextExpr,
    resolves_own, true_and, and_true, allResolved_iff]
  rfl

@[simp] theorem resolved_keepAliveStmt_iff {scope : Scope} {value : Expr} :
    (keepAliveStmt value).Resolved scope ↔
      scope.Resolves "keep_alive" .outside ∧ value.Resolved scope := by
  simp [keepAliveStmt]

theorem resolvedFrom_fillStmts_iff {values : List Expr} {scope : Scope} {answer : Expr}
    {rest : List Stmt} :
    ResolvedFrom scope answer (fillStmts values ++ rest) ↔
      (∀ e ∈ values, e.Resolved scope) ∧ ResolvedFrom scope answer rest := by
  have hscope : ∀ s ∈ fillStmts values, s.scopeAfter scope = scope := by
    intro s hs
    obtain ⟨_, -, rfl⟩ := List.mem_map.1 hs
    rfl
  have hvalues : (∀ s ∈ fillStmts values, s.Resolved scope) ↔ ∀ e ∈ values, e.Resolved scope := by
    simp only [fillStmts, List.forall_mem_map, Stmt.Resolved, arrayExpr, Expr.Resolved,
      resolves_own, true_and]
    conv_rhs => rw [← List.zipIdx_map_fst 0 values, List.forall_mem_map]
  rw [resolvedFrom_append_iff hscope, hvalues]

/-- The sequence is read before the array is bound and after that. -/
theorem resolvedFrom_arrayStmts_iff {sequence : Expr} {element : Call.Access} {answer : Expr}
    {rest : List Stmt} :
    ResolvedFrom (p.scopeWith []) answer (p.arrayStmts sequence element ++ rest) ↔
      sequence.Resolved (p.scopeWith []) ∧
        (∀ e ∈ p.argExprs.dropLast, e.Resolved (p.scopeWith ["cargs"])) ∧
          sequence.Resolved (p.scopeWith ["cargs"]) ∧
            ResolvedFrom (p.scopeWith ["cargs"]) answer rest := by
  have hscope : ∀ value, Stmt.scopeAfter (p.scopeWith []) (.bindArray "cargs" p.handleType value) =
      p.scopeWith ["cargs"] := fun _ => rfl
  simp only [arrayStmts, List.cons_append, List.append_assoc, ResolvedFrom, hscope,
    resolvedFrom_fillStmts_iff]
  simp only [Stmt.Resolved, Expr.Resolved, AllResolved, arrayExpr, resolved_accessExpr_iff,
    resolves_own, and_true, List.nil_append, Stmt.scopeAfter]

/-- The name by which something is kept alive is not one of the variables of the body. -/
theorem resolves_keepAlive_iff (hlocals : locals ⊆ ["raw_ctx", "cargs", "ast"]) :
    (p.scopeWith locals).Resolves "keep_alive" .outside ↔
      ∀ host ∈ p.names, bareName host ≠ "keep_alive" := by
  have hname : bareName "keep_alive" = "keep_alive" := bareName_eq_of_mem (by simp)
  have hlocal : "keep_alive" ∉ locals ++ contextNames config d := by
    rw [List.mem_append]
    rintro (h | h)
    · simpa using hlocals h
    · simpa using contextNames_subset h
  simp only [resolves_outside_iff hlocals, Outside, hname, hlocal, false_or]

theorem mem_kept_iff {name : String} {place : Nat} :
    (name, place) ∈ p.kept ↔ ∃ host, d.hostArgs[place]? = some host ∧
      p.names[place]? = some name ∧ isRetained config p.args host = true := by
  simp only [kept, List.mem_map, List.mem_filter, Prod.exists, List.mk_mem_zipIdx_iff_getElem?,
    List.getElem?_zip_eq_some, Prod.mk.injEq]
  constructor
  · rintro ⟨host, _, _, ⟨⟨hhost, hname⟩, hretained⟩, rfl, rfl⟩
    exact ⟨host, hhost, hname, hretained⟩
  · rintro ⟨host, hhost, hname, hretained⟩
    exact ⟨host, name, place, ⟨⟨hhost, hname⟩, hretained⟩, rfl, rfl⟩

/-- The statements that keep arguments alive leave what can be seen as it is. -/
theorem resolvedFrom_kept_iff {answer : Expr} (hanswer : ∀ scope, answer.Resolved scope) :
    ResolvedFrom (p.scopeWith ["ast"]) answer
        (p.kept.map fun (name, place) => keepAliveStmt (.name name (.host place))) ↔
      ∀ (place : Nat) (host : HostArg), d.hostArgs[place]? = some host →
        isRetained config p.args host = true →
          (∀ host ∈ p.names, bareName host ≠ "keep_alive") ∧ p.Visible ["ast"] place := by
  have hlocals : ["ast"] ⊆ ["raw_ctx", "cargs", "ast"] := by simp
  have hscope : ∀ s ∈ p.kept.map (fun (name, place) => keepAliveStmt (.name name (.host place))),
      s.scopeAfter (p.scopeWith ["ast"]) = p.scopeWith ["ast"] := by
    intro s hs
    obtain ⟨_, -, rfl⟩ := List.mem_map.1 hs
    rfl
  rw [← List.append_nil (p.kept.map _), resolvedFrom_append_iff hscope, List.forall_mem_map,
    ResolvedFrom, and_iff_left (hanswer _), Prod.forall]
  simp only [resolved_keepAliveStmt_iff, resolves_keepAlive_iff hlocals, Expr.Resolved]
  constructor
  · intro h place host hhost hretained
    obtain ⟨name, hname, -⟩ := exists_getElem?_of_forall₂ (mapM_eq_ok_iff.1 p.names_eq) hhost
    obtain ⟨hkeep, hresolves⟩ := h name place (mem_kept_iff.2 ⟨host, hhost, hname, hretained⟩)
    exact ⟨hkeep, (resolves_host_iff hlocals hname).1 hresolves⟩
  · intro h name place hmem
    obtain ⟨host, hhost, hname, hretained⟩ := mem_kept_iff.1 hmem
    obtain ⟨hkeep, hvisible⟩ := h place host hhost hretained
    exact ⟨hkeep, (resolves_host_iff hlocals hname).2 hvisible⟩

theorem resolved_answerExpr (scope : Scope) : p.answerExpr.Resolved scope := by
  unfold answerExpr
  cases p.answer <;> simp

/-- What can be seen among more variables can be seen among fewer. -/
theorem Visible.of_cons {own : String} (h : p.Visible (own :: locals) place) :
    p.Visible locals place := by
  intro name hname
  obtain ⟨hlatest, hhidden⟩ := h name hname
  exact ⟨hlatest, fun hmem => hhidden (List.mem_cons_of_mem own hmem)⟩

/-- Arguments with different names, none of them a name of the body, can all be seen. -/
theorem visible_of_names (hnodup : (p.names.map bareName).Nodup)
    (hapart : ∀ name ∈ p.names, bareName name ∉ "ctx" :: locals) (place : Nat) :
    p.Visible locals place := by
  intro name hname
  refine ⟨latest_of_nodup hnodup place, fun hmem => hapart name (List.mem_of_getElem? hname) ?_⟩
  obtain hmem | hmem := List.mem_append.1 hmem
  · exact List.mem_cons_of_mem _ hmem
  · exact List.mem_cons.2 (.inl (by simpa using contextNames_subset hmem))

/-! ## Bodies -/

theorem hygienic_iff_of_sequence {receiver : HostArg} (hreceiver : d.receiver? = some receiver)
    {arg : Call.Arg} (hsequence : Call.variadic? p.args = some arg) :
    p.routine.Hygienic ↔
      (∀ text cast, .reference text cast ∈ d.foreignArgs →
        p.Visible ["cargs"] (hostPlace d (.reference text cast))) ∧
      p.Outside ["raw_ctx", "cargs"] p.function ∧
        ∀ host ∈ p.names, bareName host ≠ "keep_alive" := by
  obtain ⟨host, element, rfl⟩ := exists_read_of_variadic? hsequence
  obtain ⟨foreign, hforeign, hmem, hexprs⟩ := p.exists_foreign_of_variadic? hsequence
  have hname := p.getElem?_names_of_binds (binds_of_mem_zip hmem)
  have hlocals : ["cargs"] ⊆ ["raw_ctx", "cargs", "ast"] := by simp
  have hstatements : p.routine.statements = p.contextStmts receiver ++
      (p.arrayStmts (.name host (.host (hostPlace d foreign))) element ++
        [p.callStmt [.castLength (.ask arrayExpr "len" []), .ask arrayExpr "as_ptr" []],
          keepAliveStmt (.reference arrayExpr)]) := by
    simp only [routine, hreceiver, Option.elim, callStmts, hsequence, hforeign]
  -- The call reads the sequence last, so it is read as the other arguments are.
  have hread : (∀ e ∈ p.argExprs, e.Resolved (p.scopeWith ["cargs"])) ↔
      (∀ e ∈ p.argExprs.dropLast, e.Resolved (p.scopeWith ["cargs"])) ∧
        p.Visible ["cargs"] (hostPlace d foreign) := by
    conv_lhs => rw [hexprs]
    rw [List.forall_mem_append, List.forall_mem_singleton, argExpr, resolved_accessExpr_iff,
      Expr.Resolved, resolves_host_iff hlocals hname]
  rw [Routine.Hygienic, hstatements]
  change ResolvedFrom (paramScope p.names.tail) p.answerExpr _ ↔ _
  rw [resolvedFrom_contextStmts_iff hreceiver, resolvedFrom_arrayStmts_iff,
    resolvedFrom_callStmt_iff, ← resolved_argExprs_iff hlocals, hread]
  simp only [ResolvedFrom, Stmt.scopeAfter, resolved_keepAliveStmt_iff, Expr.Resolved, AllResolved,
    arrayExpr, resolves_own, List.forall_mem_cons, resolved_answerExpr, and_true]
  rw [resolves_host_iff (by simp) hname, resolves_host_iff hlocals hname,
    resolves_outside_iff (by simp), resolves_keepAlive_iff (by simp)]
  constructor
  · rintro ⟨-, hfixed, hsequence, ⟨hfunction, -⟩, hkeep⟩
    exact ⟨⟨hfixed, hsequence⟩, hfunction, hkeep⟩
  · rintro ⟨⟨hfixed, hsequence⟩, hfunction, hkeep⟩
    exact ⟨hsequence.of_cons, hfixed, hsequence, ⟨hfunction, by simp⟩, hkeep⟩

theorem hygienic_iff_of_fixed {receiver : HostArg} (hreceiver : d.receiver? = some receiver)
    (hfixed : Call.variadic? p.args = none) :
    p.routine.Hygienic ↔
      (∀ text cast, .reference text cast ∈ d.foreignArgs →
        p.Visible ["raw_ctx"] (hostPlace d (.reference text cast))) ∧
      p.Outside ["raw_ctx"] p.function ∧
        ∀ (place : Nat) (host : HostArg), d.hostArgs[place]? = some host →
          isRetained config p.args host = true →
            (∀ host ∈ p.names, bareName host ≠ "keep_alive") ∧ p.Visible ["ast"] place := by
  have hlocals : ["raw_ctx"] ⊆ ["raw_ctx", "cargs", "ast"] := by simp
  have hstatements : p.routine.statements = p.contextStmts receiver ++
      p.callStmt p.callExprs :: p.kept.map fun (name, place) =>
        keepAliveStmt (.name name (.host place)) := by
    simp only [routine, hreceiver, Option.elim, callStmts, hfixed]
  rw [Routine.Hygienic, hstatements]
  change ResolvedFrom (paramScope p.names.tail) p.answerExpr _ ↔ _
  rw [resolvedFrom_contextStmts_iff hreceiver, resolvedFrom_callStmt_iff,
    resolvedFrom_kept_iff resolved_answerExpr, resolved_callExprs_iff,
    resolved_argExprs_iff hlocals, resolves_outside_iff hlocals]
  tauto

/-- The names in a body stand for what they are meant for exactly if the names of the directive are
clear. -/
theorem hygienic_iff {receiver : HostArg} (hreceiver : d.receiver? = some receiver)
    (hvariadic : (Call.variadic? p.args).isSome = d.variadic) :
    p.routine.Hygienic ↔ p.NamesClear := by
  cases hsequence : Call.variadic? p.args with
  | some arg =>
    have hd : d.variadic = true := by rw [← hvariadic, hsequence]; rfl
    rw [hygienic_iff_of_sequence hreceiver hsequence]
    constructor
    · rintro ⟨hread, hfunction, hkeep⟩
      refine ⟨?_, ?_, ?_, fun _ => hkeep⟩
      · rwa [hd]
      · simp [hd]
      · rwa [hd]
    · rintro ⟨hread, -, hfunction, hkeep⟩
      rw [hd] at hread hfunction
      exact ⟨hread, hfunction, hkeep (.inl hd)⟩
  | none =>
    have hd : d.variadic = false := by rw [← hvariadic, hsequence]; rfl
    rw [hygienic_iff_of_fixed hreceiver hsequence]
    constructor
    · rintro ⟨hread, hfunction, hkept⟩
      refine ⟨?_, fun _ place host hhost hretained => (hkept place host hhost hretained).2, ?_, ?_⟩
      · rwa [hd]
      · rwa [hd]
      · rintro (h | ⟨host, hhost, hretained⟩)
        · rw [hd] at h
          cases h
        · obtain ⟨place, hplace⟩ := List.getElem?_of_mem hhost
          exact (hkept place host hplace hretained).1
    · rintro ⟨hread, hkept, hfunction, hkeep⟩
      rw [hd] at hread hfunction
      refine ⟨hread, hfunction, fun place host hhost hretained => ⟨?_, ?_⟩⟩
      · exact hkeep (.inr ⟨host, List.mem_of_getElem? hhost, hretained⟩)
      · exact hkept hd place host hhost hretained

end Parts

/-- **Which names are safe**: in the body of the method that a line asks for, all names stand for
what they are meant for exactly if none of the arguments that are read is hidden where it is read,
and none has the name of a function that is called. -/
theorem hygienic_iff_namesClear {config : Config} {line : String} {docs : List Doc}
    {d : Directive} {m : Method} (hline : Directive.ofLine config line = .ok d)
    (hmethod : ofDirective config d docs = .ok m) :
    ∃ p : Parts config d, p.routine.tokens = m.body.code ∧
      p.routine.params = m.params.map (·.name) ∧ (p.routine.Hygienic ↔ p.NamesClear) := by
  obtain ⟨p, hcode, hparams⟩ := exists_parts_of_ofDirective_eq_ok hmethod
  obtain ⟨receiver, hreceiver, -⟩ := (Directive.valid_of_ofLine_eq_ok hline).1.exists_receiver
  exact ⟨p, hcode, hparams,
    p.hygienic_iff hreceiver (Call.isSome_variadic?_of_ofLine hline p.bind_eq)⟩

/-- Two arguments with names of their own. -/
theorem hygienic_of_two_arguments :
    ∃ d m, ∃ p : Parts {} d, Directive.ofLine {} "//wrap:expr f x y : Z3_f x y" = .ok d ∧
      ofDirective {} d [] = .ok m ∧ p.routine.tokens = m.body.code ∧
        p.routine.Hygienic ∧ p.NamesClear := by
  obtain ⟨d, hd⟩ : ∃ d, d = (⟨"f", "Expr", [⟨"x", "Expr", false⟩, ⟨"y", "Expr", false⟩], "Z3_f",
    [.reference "x" none, .reference "y" none], false, false⟩ : Directive) := ⟨_, rfl⟩
  have hline : Directive.ofLine {} "//wrap:expr f x y : Z3_f x y" = .ok d := by
    rw [hd]
    decide +kernel
  have hwrap : (ofDirective {} d []).toBool = true := by
    rw [hd]
    decide +kernel
  obtain ⟨m, hmethod⟩ := exists_eq_ok_of_toBool hwrap
  obtain ⟨p, hcode, -, hiff⟩ := hygienic_iff_namesClear hline hmethod
  have hnames : p.names = ["x", "y"] := by
    refine p.names_eq_of_mapM ?_
    rw [hd]
    decide +kernel
  have hfunction : p.function = "Z3_f" := by
    have heq : Call.identifier d.foreignFunction = .ok "Z3_f" := by
      rw [hd]
      decide +kernel
    exact Except.ok.inj (p.function_eq.symm.trans heq)
  have hvisible : ∀ own ∈ ["raw_ctx", "ast"], ∀ place, p.Visible [own] place := by
    intro own hown place
    refine Parts.visible_of_names ?_ ?_ place
    · rw [hnames]
      decide +kernel
    · rw [hnames]
      revert own
      decide +kernel
  have hd' : d.variadic = false := by rw [hd]
  have hclear : p.NamesClear := by
    refine ⟨?_, fun _ place _ _ _ => hvisible _ (by simp) place, .inr ?_, fun _ => ?_⟩
    · rw [hd']
      exact fun text cast _ => hvisible _ (by simp) _
    · rw [hnames, hfunction]
      decide +kernel
    · rw [hnames]
      decide +kernel
  exact ⟨d, m, p, hline, hmethod, hcode, hiff.2 hclear, hclear⟩

/-- A later argument that is called `ctx` is hidden by the context: the call reads the context where
the directive names the argument. -/
theorem not_hygienic_of_argument_ctx :
    ∃ d m, ∃ p : Parts {} d, Directive.ofLine {} "//wrap:expr f x ctx : Z3_f x ctx" = .ok d ∧
      ofDirective {} d [] = .ok m ∧ p.routine.tokens = m.body.code ∧ ¬ p.routine.Hygienic := by
  obtain ⟨d, hd⟩ : ∃ d, d = (⟨"f", "Expr", [⟨"x", "Expr", false⟩, ⟨"ctx", "Expr", false⟩], "Z3_f",
    [.reference "x" none, .reference "ctx" none], false, false⟩ : Directive) := ⟨_, rfl⟩
  have hline : Directive.ofLine {} "//wrap:expr f x ctx : Z3_f x ctx" = .ok d := by
    rw [hd]
    decide +kernel
  have hwrap : (ofDirective {} d []).toBool = true := by
    rw [hd]
    decide +kernel
  obtain ⟨m, hmethod⟩ := exists_eq_ok_of_toBool hwrap
  obtain ⟨p, hcode, -⟩ := exists_parts_of_ofDirective_eq_ok hmethod
  have hnames : p.names = ["x", "ctx"] := by
    refine p.names_eq_of_mapM ?_
    rw [hd]
    decide +kernel
  have hfixed := Call.isSome_variadic?_of_ofLine hline p.bind_eq
  have hplace : hostPlace d (.reference "ctx" none) = 1 := by
    rw [hd]
    decide +kernel
  have hcontext : contextNames {} d = ["ctx"] := by
    rw [hd]
    decide +kernel
  refine ⟨d, m, p, hline, hmethod, hcode, fun hhygienic => ?_⟩
  rw [p.hygienic_iff (by rw [hd]; rfl) hfixed] at hhygienic
  have hvisible := hhygienic.read_visible "ctx" none (by simp [hd])
  obtain ⟨-, hhidden⟩ := hvisible "ctx" (by simp [hplace, hnames])
  rw [Parts.bareName_eq_of_mem (by simp), hcontext] at hhidden
  simp at hhidden

end ForeignWrap.Method
