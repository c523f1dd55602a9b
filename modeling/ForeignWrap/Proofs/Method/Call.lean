import ForeignWrap.Proofs.Call
import ForeignWrap.Proofs.Method.Retention
import ForeignWrap.Proofs.Method.Statement
import ForeignWrap.Proofs.Syntax.Item
import ForeignWrap.Proofs.Syntax.PlainType

/-!
# The arguments that a call is read with

A method is written as code and read again as a tree. Each foreign argument of its directive is read
as one argument of the call, if what it holds can stand there: a literal has to be one expression,
and a type has to be the same after `as` as it is alone.

## Main definitions

* `ForeignWrap.Call.IsArgument`, `ForeignWrap.Call.IsCastType`: code that is read as a whole there.
* `ForeignWrap.Call.Stands`: the text of a foreign argument can stand in a call.
* `ForeignWrap.Call.Passes`: the expression for a foreign argument.
* `ForeignWrap.Method.Calls`, `ForeignWrap.Method.CallsWith`: what an item calls.
* `ForeignWrap.Method.exists_isStmt_call`: the call is read with its arguments one by one.
-/

namespace ForeignWrap

open Code (Token word op separated)
open Syntax (Grammar IsStmt PlainType PlainValue Written tokensOf typeOf nameExpr)
open Syntax.Parser (AtListEnd Reads ReadsEach)

namespace Call

/-- The code is one expression where an argument of a call stands. -/
def IsArgument (code : List Token) (e : Syntax.Expr) : Prop :=
  code ≠ [] ∧ ∀ depth, Code.sizeOf code + 2 ≤ depth → ∀ rest, AtListEnd rest →
    Reads ((Grammar.atDepth depth).expr true) (code ++ rest) e rest

/-- A plain value is one expression. -/
theorem isArgument_plain (value : PlainValue) : IsArgument value.code value.tree :=
  ⟨value.code_ne_nil, fun depth hdepth _ hrest =>
    value.isOperand.isExpr value.isRaw_tree depth (by omega) (.of_atListEnd hrest)⟩

/-- Code is one expression only. -/
theorem IsArgument.eq {code : List Token} {e e' : Syntax.Expr} (h : IsArgument code e)
    (h' : IsArgument code e') : e' = e :=
  (h.2 _ (Nat.le_refl _) [] (.inl rfl)).eq_of_reads (h'.2 _ (Nat.le_refl _) [] (.inl rfl))

/-- A type that is what it is also after `as`. -/
def IsCastType (type : Written .type) : Prop :=
  ∀ depth, Code.sizeOf type.tokens + 2 ≤ depth → ∀ rest, AtListEnd rest →
    Reads ((Grammar.atDepth depth).type false) (type.tokens ++ rest) type.tree rest

/-- A plain type is what it is also after `as`. -/
theorem isCastType_plain (type : PlainType) : IsCastType ⟨type.tree, type.code⟩ :=
  fun depth hdepth _ hrest =>
    have hends : Syntax.EndsExpr true _ := .of_atListEnd hrest
    type.isType depth (Nat.le_of_add_right_le hdepth) false (.of_endsExpr hends)

/-- Whether the text of a foreign argument can stand in a call: a literal is one expression there,
and a type is the same after `as` as it is alone. -/
def Stands : Directive.ForeignArg → Prop
  | .literal code => ∀ tokens, tokensOf code = .ok tokens → ∃ e, IsArgument tokens e
  | .reference _ none => True
  | .reference _ (some type) => ∀ written, typeOf type = .ok written → IsCastType written

/-- The expression for a foreign argument: what a literal is, or the argument of the method that is
named, cast to the type that is given, or else its handle, through the expression inside if it can
be an expression of any kind. -/
inductive Passes (config : Config) (d : Directive) : Directive.ForeignArg → Syntax.Expr → Prop where
  | literal {code : String} {tokens : List Token} {e : Syntax.Expr} :
      tokensOf code = .ok tokens → IsArgument tokens e → Passes config d (.literal code) e
  | cast {text type name : String} {host : Directive.HostArg} {written : Written .type} :
      d.hostArg? (Directive.splitMarker text).1 = some host → identifier host.name = .ok name →
      typeOf type = .ok written →
      Passes config d (.reference text (some type)) (.cast (nameExpr name) written.tree)
  | unwrap {text name : String} {host : Directive.HostArg} :
      d.hostArg? (Directive.splitMarker text).1 = some host → identifier host.name = .ok name →
      config.isExpr host.type = true →
      Passes config d (.reference text none)
        (Method.askExpr (Method.askExpr (nameExpr name) "ast") "raw")
  | handle {text name : String} {host : Directive.HostArg} :
      d.hostArg? (Directive.splitMarker text).1 = some host → identifier host.name = .ok name →
      config.isExpr host.type = false →
      Passes config d (.reference text none) (Method.askExpr (nameExpr name) "raw")

/-- What a foreign argument is bound to is read as its expression. -/
theorem exists_passes_of_bindArg_eq_ok {config : Config} {d : Directive}
    {foreign : Directive.ForeignArg} {arg : Arg} (hstands : Stands foreign)
    (h : bindArg config d foreign = .ok arg) :
    ∃ e, Passes config d foreign e ∧ arg.code ≠ [] ∧ ∀ depth, Code.sizeOf arg.code + 3 ≤ depth →
      ∀ rest, AtListEnd rest →
        Reads ((Grammar.atDepth depth).expr true) (arg.code ++ rest) e rest := by
  cases foreign with
  | literal code =>
    obtain ⟨tokens, htokens, rfl⟩ := map_eq_ok_iff.1 h
    have htokens := mapError_eq_ok_iff.1 htokens
    obtain ⟨e, he⟩ := hstands tokens htokens
    exact ⟨e, .literal htokens he, he.1, fun depth hdepth => he.2 depth (by
      simp only [Arg.code] at hdepth
      omega)⟩
  | reference text cast =>
    simp only [bindArg] at h
    cases hhost : d.hostArg? (Directive.splitMarker text).1 with
    | none =>
      rw [hhost] at h
      cases h
    | some host =>
      rw [hhost] at h
      simp only [bind_eq_ok_iff] at h
      obtain ⟨access, haccess, name, hname, h⟩ := h
      cases h
      have hname' := isName_of_identifier_eq_ok hname
      cases cast with
      | some type =>
        obtain ⟨written, hwritten, rfl⟩ := map_eq_ok_iff.1 haccess
        have hwritten := mapError_eq_ok_iff.1 hwritten
        refine ⟨_, .cast hhost hname hwritten, by simp [Arg.code, Access.code, word], ?_⟩
        intro depth hdepth rest hrest
        obtain _ | depth := depth
        · cases hdepth
        have hsize : Code.sizeOf written.tokens + 2 ≤ depth := by
          simp [Arg.code, Access.code] at hdepth
          omega
        exact (Syntax.isOperand_name name (.inl hname')).reads_cast (Nat.zero_le depth) rfl rfl
          (.of_atListEnd hrest) (hstands written hwritten depth hsize rest hrest)
      | none =>
        obtain rfl := Except.ok.inj haccess
        cases hexpr : config.isExpr host.type with
        | true =>
          refine ⟨_, .unwrap hhost hname hexpr, by simp [Arg.code, Access.code, word], ?_⟩
          intro depth hdepth rest hrest
          exact (Method.isOperand_unwrap hname').isExpr rfl depth (by omega) (.of_atListEnd hrest)
        | false =>
          refine ⟨_, .handle hhost hname hexpr, by simp [Arg.code, Access.code, word], ?_⟩
          intro depth hdepth rest hrest
          exact (Method.isOperand_handle hname').isExpr rfl depth (by omega) (.of_atListEnd hrest)

end Call

namespace Method

/-- An item that is one method, and calls the foreign function with these arguments in the first
statement that calls one. -/
inductive Calls (function : String) (args : List Syntax.Expr) : Syntax.Item → Prop where
  | method {attrs inner : List Syntax.Attribute} {generics : Syntax.Tree .generics}
      {type : Syntax.Ty} {signature : Syntax.Tree .signature} {before after : List Syntax.Stmt} :
      (∀ s ∈ before, ¬ IsForeignCall s) →
      Calls function args (.implItem (.ofList inner) false false generics false .absent type
        (.ofList [.fnItem (.ofList attrs) .everyone false signature (.present (Syntax.stmtsBlock
          (before ++ foreignCall function args :: after)))]))

/-- An item that calls the foreign function of a directive with an argument for the context and with
one for each that the directive names. -/
def CallsWith (config : Config) (d : Directive) (item : Syntax.Item) : Prop :=
  ∃ function args, Call.identifier d.foreignFunction = .ok function ∧
    List.Forall₂ (Call.Passes config d) d.foreignArgs args ∧
    Calls function (nameExpr "raw_ctx" :: args) item

theorem exists_args_of_bind_eq_ok {config : Config} {d : Directive} {args : List Call.Arg}
    (hstands : ∀ foreign ∈ d.foreignArgs, Call.Stands foreign)
    (h : Call.bind config d = .ok args) :
    ∃ es, List.Forall₂ (Call.Passes config d) d.foreignArgs es ∧
      List.Forall₂ (fun (arg : Call.Arg) e => arg.code ≠ [] ∧
        ∀ depth, Code.sizeOf arg.code + 3 ≤ depth → ∀ rest, AtListEnd rest →
          Reads ((Grammar.atDepth depth).expr true) (arg.code ++ rest) e rest) args es := by
  have hargs : List.Forall₂ (fun foreign arg => Call.Stands foreign ∧
      Call.bindArg config d foreign = .ok arg) d.foreignArgs args :=
    (List.forall₂_and_left _ _).2 ⟨hstands, mapM_eq_ok_iff.1 h⟩
  clear h
  generalize d.foreignArgs = foreign at hargs
  induction hargs with
  | nil => exact ⟨[], .nil, .nil⟩
  | cons harg _ ih =>
    obtain ⟨es, hes, hreads⟩ := ih
    obtain ⟨e, he, hread⟩ := Call.exists_passes_of_bindArg_eq_ok harg.1 harg.2
    exact ⟨e :: es, .cons he hes, .cons hread hreads⟩

/-- The arguments of the call with the context as the first of them. -/
theorem codeWithContext_each {args : List Call.Arg} (hne : ∀ arg ∈ args, arg.code ≠ []) :
    (CallArgs.each args).codeWithContext =
      separated (op ",") (word "raw_ctx" :: args.map (·.code)) := by
  cases args with
  | nil => rfl
  | cons first more =>
    have hfirst : first.code ≠ [] := hne first List.mem_cons_self
    have hcode : separated (op ",") ((first :: more).map (·.code)) ≠ [] := by
      cases more with
      | nil => exact hfirst
      | cons => simp [separated, hfirst]
    rw [CallArgs.codeWithContext, CallArgs.code]
    generalize hall : separated (op ",") ((first :: more).map (·.code)) = code at hcode
    rw [List.map_cons] at hall ⊢
    rw [separated, hall, List.append_assoc]
    cases code with
    | nil => exact absurd rfl hcode
    | cons => rfl

/-- The call of the foreign function is read with its arguments one by one. -/
theorem exists_isStmt_call {config : Config} {d : Directive} {args : List Call.Arg}
    {function : String} (hstands : ∀ foreign ∈ d.foreignArgs, Call.Stands foreign)
    (hargs : Call.bind config d = .ok args)
    (hfunction : Call.identifier d.foreignFunction = .ok function) :
    ∃ es, List.Forall₂ (Call.Passes config d) d.foreignArgs es ∧
      IsStmt (Code.sizeOf (Step.call function (.each args)).code)
        (Step.call function (.each args)).code
        (foreignCall function (nameExpr "raw_ctx" :: es)) := by
  obtain ⟨es, hes, hreads⟩ := exists_args_of_bind_eq_ok hstands hargs
  have hne : ∀ arg ∈ args, arg.code ≠ [] := forall_mem_of_forall₂ hreads fun _ _ h => h.1
  have hsize : Code.sizeOf (separated (op ",") (word "raw_ctx" :: args.map (·.code))) + 11 ≤
      Code.sizeOf (Step.call function (.each args)).code := by
    rw [← codeWithContext_each hne]
    simp [letCode, methodCode, callCode, separated]
    omega
  have heach : ∀ depth, Code.sizeOf (Step.call function (.each args)).code - 8 ≤ depth →
      ReadsEach ((Grammar.atDepth depth).expr true) (word "raw_ctx" :: args.map (·.code))
        (nameExpr "raw_ctx" :: es) := by
    intro depth hdepth
    refine .cons ⟨by simp [word], fun rest hrest => ?_⟩ ?_
    · exact (Syntax.isOperand_name "raw_ctx" (.inl (by decide))).isExpr rfl depth (by omega)
        (.of_atListEnd hrest)
    · have hmem : List.Forall₂ (fun (arg : Call.Arg) e => arg ∈ args ∧ _) args es :=
        (List.forall₂_and_left _ _).2 ⟨fun _ => id, hreads⟩
      rw [List.forall₂_map_left_iff]
      refine hmem.imp fun arg e hboth => ?_
      obtain ⟨harg, hne, hread⟩ := hboth
      refine ⟨hne, fun rest hrest => ?_⟩
      have hle : Code.sizeOf arg.code ≤
          Code.sizeOf (separated (op ",") (word "raw_ctx" :: args.map (·.code))) :=
        Code.sizeOf_separated (List.mem_cons_of_mem _ (List.mem_map_of_mem harg))
      exact hread depth (by omega) rest hrest
  exact ⟨es, hes, (isStmt_call (Call.isName_of_identifier_eq_ok hfunction)
    (codeWithContext_each hne) heach).mono (by omega)⟩

end Method

end ForeignWrap
