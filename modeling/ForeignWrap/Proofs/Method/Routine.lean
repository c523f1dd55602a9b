import ForeignWrap.Method.Code
import ForeignWrap.Proofs.Method.Wrap

/-!
# Method bodies as statements

The body of a method that wraps a foreign function is code. Here it is a tree of statements that is
written as that code, in which every name says what it is meant for: an argument of the method, a
variable of the body, or something outside of the method. What a name stands for, and what the
statements do when they run, can then be asked of the tree.

## Main definitions

* `ForeignWrap.Method.Expr`, `ForeignWrap.Method.Stmt`: expressions and statements.
* `ForeignWrap.Method.Routine`: a body, with the names of the arguments of its method.
* `ForeignWrap.Method.Parts`: what a directive gives a body.
* `ForeignWrap.Method.Parts.routine`: the body for a directive.
* `ForeignWrap.Method.exists_parts_of_ofDirective_eq_ok`: this is the body that is written.
-/

namespace ForeignWrap.Method

open Code (Token op word parens brackets braces separated)
open Directive (HostArg ForeignArg Error)
open Call (hostPlace identifier typeAs)

/-! ## Trees -/

/-- What a name in a body is for. -/
inductive Meaning where
  /-- The argument of the method at a place, the receiver being at the first. -/
  | host (place : Nat)
  /-- A variable of the body. -/
  | own
  /-- Something outside of the method. -/
  | outside
deriving DecidableEq

/-- An expression. -/
inductive Expr where
  /-- The receiver, before it has a name. -/
  | self
  | name (text : String) (meaning : Meaning)
  /-- Code that the directive holds. -/
  | code (tokens : List Token)
  /-- A path of more than one name, which no variable can be. -/
  | path (tokens : List Token)
  | number (n : Nat)
  | ask (receiver : Expr) (method : String) (args : List Expr)
  | call (function : Expr) (args : List Expr)
  | cast (value : Expr) (type : List Token)
  /-- A length as the foreign function takes it. -/
  | castLength (length : Expr)
  | sum (left right : Expr)
  | reference (value : Expr)
  /-- An array of null handles. -/
  | nulls (length : Expr)
  /-- What runs under the lock of a context, which tells it the raw context: one variable is bound
  to the value of an unchecked expression, and another expression is the result. -/
  | locked (context : Expr) (raw bound : String) (value result : Expr)

/-- A statement. -/
inductive Stmt where
  | bind (name : String) (value : Expr)
  | bindArray (name : String) (element : List Token) (value : Expr)
  | assign (array slot value : Expr)
  /-- Runs a statement for each element of a sequence, and with its index. -/
  | forEach (index item : String) (sequence : Expr) (body : Stmt)
  | run (value : Expr)

/-- The body of a method, with the names of its arguments after the receiver. -/
structure Routine where
  params : List String
  statements : List Stmt
  answer : Expr

/-! ## Trees as code -/

mutual

/-- An expression as code. -/
@[simp]
def Expr.tokens : Expr → List Token
  | .self => word "self"
  | .name text _ => word text
  | .code tokens => tokens
  | .path tokens => tokens
  | .number n => numberCode n
  | .ask receiver method args => methodCode receiver.tokens method (tokensOfAll args)
  | .call function args => callCode function.tokens (tokensOfAll args)
  | .cast value type => value.tokens ++ word "as" ++ type
  | .castLength length =>
    length.tokens ++ word "as" ++ rootPathCode ["std", "os", "raw", "c_uint"]
  | .sum left right => left.tokens ++ op "+" ++ right.tokens
  | .reference value => referenceCode value.tokens
  | .nulls length =>
    word "vec" ++ op "!" ++
      brackets (callCode (rootPathCode ["std", "ptr", "null_mut"]) [] ++ op ";" ++ length.tokens)
  | .locked context raw bound value result =>
    let binding := letCode (word bound) (word "unsafe" ++ braces value.tokens)
    methodCode context.tokens "with_lock"
      [op "|" ++ word raw ++ op "|" ++ braces (binding ++ result.tokens)]

/-- Expressions as code, each on its own. -/
def tokensOfAll : List Expr → List (List Token)
  | [] => []
  | e :: rest => e.tokens :: tokensOfAll rest

end

@[simp] theorem tokensOfAll_eq_map (es : List Expr) : tokensOfAll es = es.map (·.tokens) := by
  induction es with
  | nil => rfl
  | cons e es ih => rw [tokensOfAll, ih, List.map_cons]

/-- A statement as code. -/
@[simp]
def Stmt.tokens : Stmt → List Token
  | .bind name value => letCode (word name) value.tokens
  | .bindArray name element value =>
    letCode (word "mut" ++ word name ++ op ":" ++ word "Vec" ++ op "<" ++ element ++ op ">")
      value.tokens
  | .assign array slot value =>
    array.tokens ++ brackets slot.tokens ++ op "=" ++ value.tokens ++ op ";"
  | .forEach index item sequence body =>
    word "for" ++ parens (word index ++ op "," ++ word item) ++ word "in" ++
      methodCode (methodCode sequence.tokens "iter" []) "enumerate" [] ++ braces body.tokens
  | .run value => value.tokens ++ op ";"

/-- A body as code. -/
def Routine.tokens (r : Routine) : List Token :=
  r.statements.flatMap (·.tokens) ++ r.answer.tokens

/-! ## The body for a directive -/

/-- What a directive gives the body of its method. -/
structure Parts (config : Config) (d : Directive) where
  args : List Call.Arg
  /-- The names of the arguments of the method. -/
  names : List String
  function : String
  /-- The type of what the array holds, if there is an array. -/
  handleType : List Token
  answer : Answer
  bind_eq : Call.bind config d = .ok args
  names_eq : d.hostArgs.mapM (fun host => identifier host.name) = .ok names
  function_eq : identifier d.foreignFunction = .ok function
  handleType_eq : (Call.variadic? args).isSome →
    (typeAs .handleType config.handleType).map (·.tokens) = .ok handleType

/-- What is read from a value. -/
def accessExpr (value : Expr) : Call.Access → Expr
  | .unwrap => .ask (.ask value "ast" []) "raw" []
  | .handle => .ask value "raw" []
  | .cast type => .cast value type

/-- An argument of the call, which the directive says to be `foreign`. -/
def argExpr (d : Directive) (foreign : ForeignArg) : Call.Arg → Expr
  | .literal code => .code code
  | .read host access _ => accessExpr (.name host (.host (hostPlace d foreign))) access

/-- The variable that is bound to the context. -/
def contextExpr : Expr :=
  .name "ctx" .own

/-- The variable that is bound to the array. -/
def arrayExpr : Expr :=
  .name "cargs" .own

/-- The statements that put values into the slots of the array, in order. -/
def fillStmts (values : List Expr) : List Stmt :=
  values.zipIdx.map fun (value, slot) => .assign arrayExpr (.number slot) value

namespace Parts

variable {config : Config} {d : Directive} (p : Parts config d)

theorem names_eq_of_mapM {names : List String}
    (h : d.hostArgs.mapM (fun host => identifier host.name) = .ok names) : p.names = names :=
  Except.ok.inj (p.names_eq.symm.trans h)

/-- The name of the receiver. -/
def receiverName : String :=
  p.names.headD ""

/-- The arguments of the call. -/
def argExprs : List Expr :=
  (d.foreignArgs.zip p.args).map fun (foreign, arg) => argExpr d foreign arg

/-- The arguments of the call as they are written: code without tokens is no argument on its own. -/
def callExprs : List Expr :=
  match (CallArgs.each p.args).code with
  | [] => []
  | _ => p.argExprs

/-- The statements that name the receiver and the context. -/
def contextStmts (receiver : HostArg) : List Stmt :=
  let self' := Expr.name p.receiverName (.host 0)
  .bind p.receiverName .self ::
    if !config.isContext receiver.type then [.bind "ctx" (.ask self' "ctx" [])]
    else if receiver.name = "ctx" then []
    else [.bind "ctx" self']

/-- The statements that put the arguments of the call into an array. -/
def arrayStmts (sequence : Expr) (element : Call.Access) : List Stmt :=
  let fixed := p.argExprs.dropLast
  .bindArray "cargs" p.handleType
      (.nulls (.sum (.ask sequence "len" []) (.number fixed.length))) ::
    fillStmts fixed ++
    [.forEach "i" "item" sequence
      (.assign arrayExpr (.sum (.name "i" .own) (.number fixed.length))
        (accessExpr (.name "item" .own) element))]

/-- The statement that calls the foreign function. -/
def callStmt (args : List Expr) : Stmt :=
  .bind "ast" (.locked contextExpr "raw_ctx" "cexpr"
    (.call (.name p.function .outside) (.name "raw_ctx" .own :: args))
    (.call (.path (pathCode ["Ast", "wrap_locked"]))
      [contextExpr, .name "raw_ctx" .own, .name "cexpr" .own]))

/-- The statement that keeps a value alive up to here. -/
def keepAliveStmt (value : Expr) : Stmt :=
  .run (.call (.name "keep_alive" .outside) [value])

/-- The arguments of the method that are kept alive, with their places. -/
def kept : List (String × Nat) :=
  ((d.hostArgs.zip p.names).zipIdx.filter fun ((host, _), _) =>
    isRetained config p.args host).map fun ((_, name), place) => (name, place)

/-- The statements that call the foreign function, and those before and after them that the way in
which the arguments are passed asks for. -/
def callStmts : List Stmt :=
  match Call.variadic? p.args, d.foreignArgs.getLast? with
  | some (.read host element _), some foreign =>
    p.arrayStmts (.name host (.host (hostPlace d foreign))) element ++
      [p.callStmt [.castLength (.ask arrayExpr "len" []), .ask arrayExpr "as_ptr" []],
        keepAliveStmt (.reference arrayExpr)]
  | _, _ =>
    p.callStmt p.callExprs ::
      p.kept.map fun (name, place) => keepAliveStmt (.name name (.host place))

/-- What the method answers with. -/
def answerExpr : Expr :=
  match p.answer with
  | .lift => .ask (.name "ast" .own) "lift" [.path (pathCode ["Kind", "Unknown"])]
  | .convert type => .call (.path (type ++ op "::" ++ word "from")) [.name "ast" .own]
  | .convertQualified type =>
    .call (.path (op "<" ++ type ++ op ">" ++ op "::" ++ word "from")) [.name "ast" .own]

/-- The body. -/
def routine : Routine where
  params := p.names.tail
  statements := d.receiver?.elim [] p.contextStmts ++ p.callStmts
  answer := p.answerExpr

/-! ## The body is the one that is written -/

theorem length_args : d.foreignArgs.length = p.args.length :=
  (Call.binds_of_bind_eq_ok p.bind_eq).length_eq

/-- The receiver has the first name. -/
theorem exists_names_eq_cons {receiver : HostArg} (hreceiver : d.receiver? = some receiver) :
    ∃ params, p.names = p.receiverName :: params := by
  have hlength := (mapM_eq_ok_iff.1 p.names_eq).length_eq
  have hhosts : d.hostArgs ≠ [] := List.ne_nil_of_mem (List.mem_of_head? hreceiver)
  cases hnames : p.names with
  | nil => exact absurd (by simpa [hnames] using hlength) hhosts
  | cons name params => exact ⟨params, by rw [receiverName, hnames]; rfl⟩

/-- An argument of the call reads the argument of the method at its place by the name that this one
has. -/
theorem getElem?_names_of_binds {foreign : ForeignArg} {host : String} {access : Call.Access}
    {variadic : Bool} (h : Call.Binds config d foreign (.read host access variadic)) :
    p.names[hostPlace d foreign]? = some host := by
  cases h with
  | read hplace _ _ hname =>
    obtain ⟨name, hget, hread⟩ := exists_getElem?_of_forall₂ (mapM_eq_ok_iff.1 p.names_eq) hplace
    rw [hname] at hread
    cases hread
    exact hget

theorem tokens_accessExpr (name : String) (meaning : Meaning) (access : Call.Access) :
    (accessExpr (.name name meaning) access).tokens = access.code name := by
  cases access <;> rfl

theorem tokens_argExpr (foreign : ForeignArg) (arg : Call.Arg) :
    (argExpr d foreign arg).tokens = arg.code := by
  cases arg with
  | literal code => rfl
  | read host access _ => exact tokens_accessExpr host _ access

@[simp] theorem map_tokens_argExprs : p.argExprs.map (·.tokens) = p.args.map (·.code) := by
  have hsnd : (d.foreignArgs.zip p.args).map Prod.snd = p.args :=
    List.map_snd_zip (Nat.le_of_eq p.length_args.symm)
  conv_rhs => rw [← hsnd]
  simp only [argExprs, List.map_map]
  refine List.map_congr_left fun pair _ => ?_
  exact tokens_argExpr pair.1 pair.2

theorem flatMap_tokens_contextStmts (receiver : HostArg) :
    (p.contextStmts receiver).flatMap (·.tokens) =
      (contextSteps config receiver p.receiverName).flatMap (·.code) := by
  unfold contextStmts contextSteps
  split
  · rfl
  · split <;> rfl

theorem separated_cons {separator first : List Token} {rest : List (List Token)}
    (hrest : rest ≠ []) :
    separated separator (first :: rest) = first ++ separator ++ separated separator rest := by
  cases rest with
  | nil => exact absurd rfl hrest
  | cons next rest => rfl

/-- The arguments of the call are written after the raw context, if any code is left of them. -/
theorem separated_callExprs :
    separated (op ",") (word "raw_ctx" :: p.callExprs.map (·.tokens)) =
      (CallArgs.each p.args).codeWithContext := by
  unfold callExprs CallArgs.codeWithContext
  cases hcode : (CallArgs.each p.args).code with
  | nil => rfl
  | cons first rest =>
    have hne : p.args.map (·.code) ≠ [] := by
      intro h
      simp [CallArgs.code, h, separated] at hcode
    simp only [map_tokens_argExprs]
    rw [separated_cons hne, ← hcode, CallArgs.code, List.append_assoc]

theorem tokens_callStmt {args : List Expr} {given : CallArgs}
    (h : separated (op ",") (word "raw_ctx" :: args.map (·.tokens)) = given.codeWithContext) :
    (p.callStmt args).tokens = (Step.call p.function given).code := by
  simp only [callStmt, Stmt.tokens, Expr.tokens, tokensOfAll_eq_map, List.map_cons, callCode, h]
  rfl

/-- The arguments of the method that are kept alive are written by their names. -/
theorem flatMap_tokens_kept :
    (p.kept.map fun (name, place) => keepAliveStmt (.name name (.host place))).flatMap (·.tokens) =
      (((d.hostArgs.zip p.names).filter fun (host, _) => isRetained config p.args host).map
        fun (_, name) => Step.keepAlive name).flatMap (·.code) := by
  have hfst : (d.hostArgs.zip p.names).zipIdx.map Prod.fst = d.hostArgs.zip p.names :=
    List.zipIdx_map_fst 0 _
  conv_rhs => rw [← hfst]
  simp only [kept, List.filter_map, List.flatMap_map, List.map_map]
  rfl

/-- Expressions and arguments that are the same code fill the slots in the same way. -/
theorem flatMap_tokens_fillSlot {values : List Expr} {args : List Call.Arg}
    (h : values.map (·.tokens) = args.map (·.code)) :
    (fillStmts values).flatMap (·.tokens) =
      (args.zipIdx.map fun (value, slot) => Step.fillSlot slot value).flatMap (·.code) := by
  have hvalues : (values.map (·.tokens)).zipIdx.flatMap
      (fun (code, slot) => assignCode (numberCode slot) code) =
      (fillStmts values).flatMap (·.tokens) := by
    rw [fillStmts, List.zipIdx_map, List.flatMap_map, List.flatMap_map]
    rfl
  rw [← hvalues, h, List.zipIdx_map, List.flatMap_map, List.flatMap_map]
  rfl

theorem flatMap_tokens_arrayStmts {host : String} {element : Call.Access}
    (hvariadic : Call.variadic? p.args = some (.read host element true)) (meaning : Meaning) :
    (p.arrayStmts (.name host meaning) element).flatMap (·.tokens) =
      (arraySteps p.handleType (Call.fixed p.args) host (.read host element true)).flatMap
        (·.code) := by
  have hfixed : Call.fixed p.args = p.args.dropLast := by
    rw [Call.fixed, hvariadic]
    rfl
  have hmap : p.argExprs.dropLast.map (·.tokens) = p.args.dropLast.map (·.code) := by
    rw [List.map_dropLast, map_tokens_argExprs, List.map_dropLast]
  have hlength : p.argExprs.dropLast.length = p.args.dropLast.length := by
    have hboth := congrArg List.length hmap
    rwa [List.length_map, List.length_map] at hboth
  have helement : (accessExpr (.name "item" .own) element).tokens = element.code "item" :=
    tokens_accessExpr "item" .own element
  simp only [arrayStmts, arraySteps, hfixed, hlength, List.flatMap_cons, List.flatMap_append,
    flatMap_tokens_fillSlot hmap, List.flatMap_nil, Stmt.tokens, helement]
  rfl

theorem exists_read_of_variadic? {args : List Call.Arg} {arg : Call.Arg}
    (h : Call.variadic? args = some arg) : ∃ host access, arg = .read host access true := by
  obtain ⟨-, hvariadic⟩ := Option.filter_eq_some_iff.1 h
  cases arg with
  | literal code => cases hvariadic
  | read host access variadic =>
    obtain rfl : variadic = true := hvariadic
    exact ⟨host, access, rfl⟩

/-- A call that passes a sequence is written in the directive with a last argument, and it reads
that argument last. -/
theorem exists_foreign_of_variadic? {arg : Call.Arg} (h : Call.variadic? p.args = some arg) :
    ∃ foreign, d.foreignArgs.getLast? = some foreign ∧ (foreign, arg) ∈ d.foreignArgs.zip p.args ∧
      p.argExprs = p.argExprs.dropLast ++ [argExpr d foreign arg] := by
  obtain ⟨hlast, -⟩ := Option.filter_eq_some_iff.1 h
  obtain ⟨before, hargs⟩ := List.getLast?_eq_some_iff.1 hlast
  have hlength : d.foreignArgs.length = before.length + 1 := by
    rw [p.length_args, hargs, List.length_append, List.length_singleton]
  have hne : d.foreignArgs ≠ [] := List.ne_nil_of_length_eq_add_one hlength
  have hsplit := List.dropLast_append_getLast hne
  have hzip : d.foreignArgs.zip p.args =
      d.foreignArgs.dropLast.zip before ++ [(d.foreignArgs.getLast hne, arg)] := by
    conv_lhs => rw [← hsplit, hargs]
    rw [List.zip_append (by rw [List.length_dropLast, hlength, Nat.add_sub_cancel])]
    rfl
  have hexprs : p.argExprs = ((d.foreignArgs.dropLast.zip before).map fun (foreign, arg) =>
      argExpr d foreign arg) ++ [argExpr d (d.foreignArgs.getLast hne) arg] := by
    rw [argExprs, hzip, List.map_append]
    rfl
  refine ⟨d.foreignArgs.getLast hne, List.getLast?_eq_getLast_of_ne_nil hne, by simp [hzip], ?_⟩
  conv_rhs => rw [hexprs, List.dropLast_concat]
  exact hexprs

/-- The statements of the body are written as the steps of the method. -/
theorem flatMap_tokens_of_steps_eq_ok {receiver : HostArg} {ss : List Step}
    (h : steps config p.function p.args receiver p.receiverName (d.hostArgs.zip p.names) = .ok ss) :
    (p.contextStmts receiver ++ p.callStmts).flatMap (·.tokens) = ss.flatMap (·.code) := by
  rw [List.flatMap_append, flatMap_tokens_contextStmts]
  unfold steps sequence? at h
  cases hvariadic : Call.variadic? p.args with
  | none =>
    rw [hvariadic] at h
    cases h
    simp only [callStmts, hvariadic, List.flatMap_cons, List.flatMap_append, flatMap_tokens_kept,
      p.tokens_callStmt p.separated_callExprs]
  | some arg =>
    obtain ⟨host, element, rfl⟩ := exists_read_of_variadic? hvariadic
    obtain ⟨foreign, hforeign, -, -⟩ := p.exists_foreign_of_variadic? hvariadic
    rw [hvariadic] at h
    obtain ⟨type, htype, hss⟩ := bind_eq_ok_iff.1 h
    cases hss
    have hhandle : type.tokens = p.handleType := by
      have heq := p.handleType_eq (by simp [hvariadic])
      rw [htype] at heq
      exact Except.ok.inj heq
    have hcall : (p.callStmt [.castLength (.ask arrayExpr "len" []),
        .ask arrayExpr "as_ptr" []]).tokens = (Step.call p.function .array).code :=
      p.tokens_callStmt rfl
    simp only [callStmts, hvariadic, hforeign, List.flatMap_append, List.flatMap_cons,
      flatMap_tokens_arrayStmts p hvariadic, hhandle, hcall, List.append_assoc]
    rfl

end Parts

theorem exists_handleType_of_steps_eq_ok {config : Config} {function : String}
    {args : List Call.Arg} {receiver : HostArg} {name : String} {hosts : List (HostArg × String)}
    {ss : List Step} (h : steps config function args receiver name hosts = .ok ss) :
    ∃ handleType, (Call.variadic? args).isSome →
      (typeAs .handleType config.handleType).map (·.tokens) = .ok handleType := by
  cases hvariadic : Call.variadic? args with
  | none => exact ⟨[], by simp⟩
  | some arg =>
    obtain ⟨host, element, rfl⟩ := Parts.exists_read_of_variadic? hvariadic
    unfold steps sequence? at h
    rw [hvariadic] at h
    obtain ⟨type, htype, -⟩ := bind_eq_ok_iff.1 h
    exact ⟨type.tokens, fun _ => by rw [htype]; rfl⟩

/-- **The tree of the body is the body**: a method that a directive asks for has the parts that the
directive gives, its body is written as the tree for these parts, and its arguments are named as
there. -/
theorem exists_parts_of_ofDirective_eq_ok {config : Config} {d : Directive} {docs : List Doc}
    {m : Method} (h : ofDirective config d docs = .ok m) :
    ∃ p : Parts config d, p.routine.tokens = m.body.code ∧
      p.routine.params = m.params.map (·.name) := by
  obtain ⟨w⟩ := nonempty_wrapped h
  obtain ⟨handleType, hhandle⟩ := exists_handleType_of_steps_eq_ok w.steps_eq
  let p : Parts config d :=
    ⟨w.args, w.receiverName :: m.params.map (·.name), w.function, handleType,
      answerOf config d.result w.result, w.args_eq, mapM_eq_ok_iff.2 w.forall₂_names, w.function_eq,
      hhandle⟩
  have hbody : p.routine.statements.flatMap (·.tokens) = w.steps.flatMap (·.code) := by
    have hstatements : p.routine.statements = p.contextStmts w.receiver ++ p.callStmts := by
      simp only [Parts.routine, w.receiver?_eq, Option.elim]
    rw [hstatements]
    refine p.flatMap_tokens_of_steps_eq_ok ?_
    rw [w.hosts_eq]
    exact w.steps_eq
  have hanswer : p.answerExpr.tokens = p.answer.code := by
    unfold Parts.answerExpr
    cases p.answer <;> rfl
  refine ⟨p, ?_, rfl⟩
  rw [w.body_eq, Routine.tokens, hbody]
  exact congrArg _ hanswer

end ForeignWrap.Method
