import ForeignWrap.Proofs.Layout.Method
import ForeignWrap.Proofs.Method.Failure
import ForeignWrap.Proofs.Method.Retention

/-!
# Steps as statements

Read as code, each step of a method is the statement that it was written for.

## Main definitions

* `ForeignWrap.Method.foreignCall`: the statement that calls the foreign function.
* `ForeignWrap.Method.isStmt_call`: the arguments of the call are those that are written one by one.
-/

namespace ForeignWrap

open Code (Token op word parens brackets braces separated)
open Syntax

/-! ## Names -/

namespace Syntax

theorem isName_of_name_eq_ok {input final : Input} {text : String}
    (h : Parser.name input = .ok (text, final)) : isName text = true := by
  obtain ⟨tokens, between, hahead, h⟩ := Parser.bind_input_eq_ok_iff.1 h
  cases hahead
  cases hrest : input.rest with
  | nil =>
    simp only [hrest] at h
    cases h
  | cons t rest =>
    rw [hrest] at h
    cases t with
    | word word =>
      by_cases hname : isName word = true
      · simp only [hname, if_true] at h
        obtain ⟨_, _, _, h⟩ := Parser.bind_input_eq_ok_iff.1 h
        cases h
        exact hname
      · simp only [hname] at h
        cases h
    | _ => cases h

end Syntax

namespace Call

theorem isName_of_identifier_eq_ok {text name : String} (h : identifier text = .ok name) :
    isName name = true := by
  obtain ⟨tokens, -, h⟩ := bind_eq_ok_iff.1 (mapError_eq_ok_iff.1 h)
  obtain ⟨⟨name', taken⟩, hrun, h⟩ := bind_eq_ok_iff.1 h
  cases h
  obtain ⟨input, hread⟩ := exists_input_of_run_eq_ok hrun
  exact isName_of_name_eq_ok hread

end Call

namespace Method

/-! ## Calls -/

theorem isPathWord_of_isName {text : String} (h : isName text = true) : IsPathWord text :=
  .inl h

/-- The call of a method without arguments. -/
def askExpr (receiver : Syntax.Expr) (method : String) : Syntax.Expr :=
  .methodCall receiver method .absent .nil

/-- What calls the foreign function and wraps its result, under the lock. -/
def lockedBlock (function : String) (args : List Syntax.Expr) : Syntax.Expr :=
  .blockExpr none (stmtsBlock [
    letNameStmt "cexpr" (.unsafeBlock (stmtsBlock [
      .exprStmt (.call (nameExpr function) (.ofList args)) false])),
    .exprStmt (.call (Grammar.wordPathExpr false "Ast" ["wrap_locked"])
      (.ofList (["ctx", "raw_ctx", "cexpr"].map nameExpr))) false])

/-- The statement that calls the foreign function with these arguments. -/
def foreignCall (function : String) (args : List Syntax.Expr) : Syntax.Stmt :=
  letNameStmt "ast" (.methodCall (nameExpr "ctx") "with_lock" .absent
    (.ofList [closureExpr "raw_ctx" (lockedBlock function args)]))

theorem hasLayout_askExpr {receiver : Syntax.Expr} (h : receiver.HasLayout) (method : String) :
    (askExpr receiver method).HasLayout :=
  ⟨h, trivial, trivial⟩

theorem hasLayout_call {function : Syntax.Expr} {args : List Syntax.Expr}
    (hfunction : function.HasLayout) (hargs : ∀ arg ∈ args, arg.HasLayout) :
    (Tree.call function (.ofList args)).HasLayout :=
  ⟨hfunction, Tree.hasLayout_ofList hargs⟩

theorem hasLayout_methodCall {receiver : Syntax.Expr} {args : List Syntax.Expr}
    (hreceiver : receiver.HasLayout) (method : String) (hargs : ∀ arg ∈ args, arg.HasLayout) :
    (Tree.methodCall receiver method .absent (.ofList args)).HasLayout :=
  ⟨hreceiver, trivial, Tree.hasLayout_ofList hargs⟩

/-- The statement of the call has a layout if its arguments do. -/
theorem hasLayout_foreignCall {function : String} {args : List Syntax.Expr}
    (h : ∀ arg ∈ args, arg.HasLayout) : (foreignCall function args).HasLayout := by
  have hunsafe : ∀ s ∈ [Tree.exprStmt (.call (nameExpr function) (.ofList args)) false],
      s.HasLayout :=
    List.forall_mem_singleton.2 (hasLayout_call (hasLayout_nameExpr function) h)
  have hwrap : (Tree.exprStmt (.call (Grammar.wordPathExpr false "Ast" ["wrap_locked"])
      (.ofList (["ctx", "raw_ctx", "cexpr"].map nameExpr))) false).HasLayout :=
    hasLayout_call (hasLayout_wordPath false "Ast" ["wrap_locked"]) (hasLayout_names _)
  have hblock : (lockedBlock function args).HasLayout :=
    hasLayout_stmtsBlock (List.forall_mem_cons.2
      ⟨hasLayout_letNameStmt (hasLayout_stmtsBlock hunsafe) "cexpr",
        List.forall_mem_singleton.2 hwrap⟩)
  exact hasLayout_letNameStmt (hasLayout_methodCall (hasLayout_nameExpr "ctx") "with_lock"
    (List.forall_mem_singleton.2 (hasLayout_closureExpr hblock "raw_ctx"))) "ast"

/-- What the call of the foreign function has for its arguments. -/
theorem readsEach_names {d : Nat} (names : List String) (hd : 1 ≤ d)
    (h : ∀ name ∈ names, isName name = true) :
    Parser.ReadsEach ((Grammar.atDepth d).expr true) (names.map word) (names.map nameExpr) := by
  rw [Parser.ReadsEach, List.forall₂_map_left_iff, List.forall₂_map_right_iff, List.forall₂_same]
  intro name hname
  refine ⟨by simp [word], fun rest hrest => ?_⟩
  exact (isOperand_name name (isPathWord_of_isName (h name hname))).isExpr rfl d hd
    (.of_atListEnd hrest)

/-- The call in the block reads its arguments one by one. -/
theorem reads_callBlock {depth : Nat} {function : String} {pieces : List (List Token)}
    {args : List Syntax.Expr} (hfunction : isName function = true)
    (hargs : ∀ d, depth ≤ d → Parser.ReadsEach ((Grammar.atDepth d).expr true) pieces args) :
    IsExpr (depth + 2) (word "unsafe" ++ braces (callCode (word function) pieces))
      (.unsafeBlock (stmtsBlock [.exprStmt (.call (nameExpr function) (.ofList args)) false])) := by
  have hcall : IsOperand depth (callCode (word function) pieces)
      (.call (nameExpr function) (.ofList args)) :=
    ((isOperand_name function (isPathWord_of_isName hfunction)).mono (Nat.zero_le _)).call hargs
  have hbegins : Grammar.BeginsExprStmt (callCode (word function) pieces) :=
    Grammar.beginsExprStmt_wordPath false function [] (isPathWord_of_isName hfunction)
      (List.forall_mem_nil _) rfl rfl rfl (by rintro - rfl; cases hfunction)
  refine isExpr_unsafe rfl fun d hd => ?_
  obtain _ | d := d
  · cases hd
  have hlast := hcall.reads_last (Nat.le_of_succ_le_succ hd) hbegins rfl ⟨by simp, by simp⟩
  exact reads_stmts (Nat.le_of_succ_le_succ hd) .nil (by simp) hlast

/-- What wraps the result of the call. -/
theorem isOperand_wrapPath : IsOperand 0 (pathCode ["Ast", "wrap_locked"])
    (Grammar.wordPathExpr false "Ast" ["wrap_locked"]) :=
  isOperand_wordPath false (.inl (by decide)) (by simp [IsPathWord, isName, keywords])

theorem isOperand_wrapLocked : IsOperand 1
    (callCode (pathCode ["Ast", "wrap_locked"]) [word "ctx", word "raw_ctx", word "cexpr"])
    (.call (Grammar.wordPathExpr false "Ast" ["wrap_locked"])
      (.ofList (["ctx", "raw_ctx", "cexpr"].map nameExpr))) :=
  (isOperand_wrapPath.mono (Nat.zero_le _)).call fun _ hd =>
    readsEach_names ["ctx", "raw_ctx", "cexpr"] hd (by decide)

theorem beginsExprStmt_wrapPath {content rest : List Token} :
    Grammar.BeginsExprStmt
      (pathCode ["Ast", "wrap_locked"] ++ (.group .parenthesis content :: rest)) :=
  Grammar.beginsExprStmt_wordPath false "Ast" ["wrap_locked"] (.inl (by decide))
    (by simp [IsPathWord, isName, keywords]) rfl rfl rfl (by simp)

/-- The statement of the call reads the arguments one by one. -/
theorem isStmt_call {depth : Nat} {function : String} {given : CallArgs}
    {pieces : List (List Token)} {args : List Syntax.Expr} (hfunction : isName function = true)
    (hgiven : given.codeWithContext = separated (op ",") pieces)
    (hargs : ∀ d, depth ≤ d → Parser.ReadsEach ((Grammar.atDepth d).expr true) pieces args) :
    IsStmt (depth + 8) (Step.call function given).code (foreignCall function args) := by
  have hcexpr : IsStmt (depth + 3)
      (letCode (word "cexpr") (word "unsafe" ++ braces (callCode (word function) pieces)))
      (letNameStmt "cexpr" (.unsafeBlock (stmtsBlock [
        .exprStmt (.call (nameExpr function) (.ofList args)) false]))) :=
    isStmt_let "cexpr" (by decide) (reads_callBlock hfunction hargs)
  have hbody : IsExpr (depth + 5) (braces
      (letCode (word "cexpr") (word "unsafe" ++ braces (callCode (word function) pieces)) ++
        callCode (pathCode ["Ast", "wrap_locked"]) [word "ctx", word "raw_ctx", word "cexpr"]))
      (lockedBlock function args) := by
    refine isExpr_block rfl fun d hd => ?_
    obtain _ | d := d
    · cases hd
    have hlast := isOperand_wrapLocked.reads_last (d := d) (by omega)
      beginsExprStmt_wrapPath rfl ⟨by simp, by simp⟩
    simpa using reads_stmts (Nat.le_of_succ_le_succ hd) (.cons hcexpr .nil)
      (by simp [callCode, pathCode, separated, word]) hlast
  have hclosure : IsExpr (depth + 6) (op "|" ++ word "raw_ctx" ++ op "|" ++ braces
      (letCode (word "cexpr") (word "unsafe" ++ braces (callCode (word function) pieces)) ++
        callCode (pathCode ["Ast", "wrap_locked"]) [word "ctx", word "raw_ctx", word "cexpr"]))
      (closureExpr "raw_ctx" (lockedBlock function args)) :=
    isExpr_closure (by omega) (by decide) (fun _ => rfl) hbody
  have hlock := ((isOperand_name "ctx" (.inl (by decide))).mono
    (Nat.zero_le (depth + 6))).methodCall "with_lock" rfl (by decide) fun d hd =>
      List.Forall₂.cons ⟨by simp [op, Code.opSigns], fun rest hrest =>
        hclosure d hd (.of_atListEnd hrest)⟩ .nil
  have hlet := isStmt_let "ast" (by decide) (hlock.isExpr rfl)
  simp only [Step.code, hgiven]
  exact hlet

/-! ## Arguments -/

theorem code_unwrap (var : String) :
    Call.Access.unwrap.code var = methodCode (methodCode (word var) "ast" []) "raw" [] := by
  simp [Call.Access.code, Call.callNoArgs, methodCode, callCode, separated]

theorem code_handle (var : String) :
    Call.Access.handle.code var = methodCode (word var) "raw" [] := by
  simp [Call.Access.code, Call.callNoArgs, methodCode, callCode, separated]

theorem isOperand_unwrap {var : String} (hvar : isName var = true) :
    IsOperand 0 (Call.Access.unwrap.code var) (askExpr (askExpr (nameExpr var) "ast") "raw") := by
  rw [code_unwrap]
  exact ((isOperand_name var (.inl hvar)).methodCall_nil "ast" rfl (by decide)).methodCall_nil "raw"
    rfl (by decide)

theorem isOperand_handle {var : String} (hvar : isName var = true) :
    IsOperand 0 (Call.Access.handle.code var) (askExpr (nameExpr var) "raw") := by
  rw [code_handle]
  exact (isOperand_name var (.inl hvar)).methodCall_nil "raw" rfl (by decide)

/-! ## The other steps -/

/-- Whether a statement calls the foreign function. -/
def IsForeignCall (s : Syntax.Stmt) : Prop :=
  ∃ function args, s = foreignCall function args

theorem not_isForeignCall_of_name {name : String} {e : Syntax.Expr} (hname : name ≠ "ast") :
    ¬ IsForeignCall (letNameStmt name e) := by
  rintro ⟨function, args, hcall⟩
  simp [foreignCall, letNameStmt, Syntax.namePat, hname] at hcall

/-- The steps before the call are statements, and none of them calls the foreign function. -/
theorem exists_isStmt_contextStep {config : Config} {receiver : Directive.HostArg} {name : String}
    (hname : isName name = true) {step : Step} (hstep : step ∈ contextSteps config receiver name) :
    ∃ s, IsStmt 2 step.code s ∧ s.HasLayout ∧ ¬ IsForeignCall s := by
  have hreceiver : IsStmt 2 (Step.nameReceiver name).code
      (letNameStmt name (Grammar.wordPathExpr false "self" [])) :=
    isStmt_let name hname ((isOperand_name "self" (.inr (by decide))).isExpr rfl)
  have hask : IsStmt 2 (Step.askContext name).code
      (letNameStmt "ctx" (askExpr (Grammar.wordPathExpr false name []) "ctx")) :=
    isStmt_let "ctx" (by decide)
      (((isOperand_name name (.inl hname)).methodCall_nil "ctx" rfl (by decide)).isExpr rfl)
  have halias : IsStmt 2 (Step.aliasContext name).code
      (letNameStmt "ctx" (Grammar.wordPathExpr false name [])) :=
    isStmt_let "ctx" (by decide) ((isOperand_name name (.inl hname)).isExpr rfl)
  unfold contextSteps at hstep
  obtain rfl | hstep := List.mem_cons.1 hstep
  · refine ⟨_, hreceiver, hasLayout_letNameStmt (hasLayout_wordPath false "self" []) name, ?_⟩
    rintro ⟨function, args, hcall⟩
    cases hcall
  · split at hstep
    · obtain rfl := List.mem_singleton.1 hstep
      exact ⟨_, hask, hasLayout_letNameStmt (hasLayout_askExpr (hasLayout_wordPath false name [])
        "ctx") "ctx", not_isForeignCall_of_name (by decide)⟩
    · split at hstep
      · cases hstep
      · obtain rfl := List.mem_singleton.1 hstep
        exact ⟨_, halias, hasLayout_letNameStmt (hasLayout_wordPath false name []) "ctx",
          not_isForeignCall_of_name (by decide)⟩

theorem isStmt_keepAliveCode {depth : Nat} {value : List Token} {e : Syntax.Expr}
    (hne : value ≠ []) (hvalue : IsExpr depth value e) :
    IsStmt depth (keepAliveCode value)
      (.exprStmt (.call (nameExpr "keep_alive") (.ofList [e])) true) := by
  have hargs : ∀ d, depth ≤ d →
      Parser.ReadsEach ((Grammar.atDepth d).expr true) [value] [e] := fun d hd =>
    .cons ⟨hne, fun rest hrest => hvalue d hd (.of_atListEnd hrest)⟩ .nil
  have hname : IsPathWord "keep_alive" := .inl (by decide)
  have hcall := ((isOperand_name "keep_alive" hname).mono (Nat.zero_le depth)).call hargs
  refine isStmt_operand hcall (fun rest => ?_) rfl ⟨by simp, by simp⟩
  exact Grammar.beginsExprStmt_wordPath false "keep_alive" [] hname (List.forall_mem_nil _)
    rfl rfl rfl (by decide)

theorem hasLayout_keepAlive {e : Syntax.Expr} (h : e.HasLayout) :
    (Tree.exprStmt (.call (nameExpr "keep_alive") (.ofList [e])) true).HasLayout :=
  hasLayout_call (hasLayout_nameExpr "keep_alive") (List.forall_mem_singleton.2 h)

/-- What is kept alive is kept by a statement. -/
theorem isStmt_keepAlive {name : String} (hname : isName name = true) :
    IsStmt 1 (Step.keepAlive name).code
      (.exprStmt (.call (nameExpr "keep_alive") (.ofList [nameExpr name])) true) :=
  isStmt_keepAliveCode (by simp [word]) ((isOperand_name name (.inl hname)).isExpr rfl)

theorem isStmt_keepArrayAlive :
    IsStmt 2 Step.keepArrayAlive.code
      (.exprStmt (.call (nameExpr "keep_alive")
        (.ofList [.reference false (nameExpr "cargs")])) true) :=
  isStmt_keepAliveCode (by simp [referenceCode, op, Code.opSigns])
    ((isOperand_name "cargs" (.inl (by decide))).isExpr_reference rfl (by decide)
      (by decide) (by simp [word]))

end Method
end ForeignWrap
