import ForeignWrap.Proofs.Method.Call
import ForeignWrap.Proofs.Syntax.Assignment

/-!
# The array of a call as code

Where the last argument of a foreign call is a sequence, the method makes an array, fills it and
passes it. Each of these steps is code.

## Main definitions

* `ForeignWrap.Call.Arg.IsPlain`: an argument that reads one of the method, or is a plain value.
* `ForeignWrap.Method.exists_isStmt_makeArray`, `ForeignWrap.Method.exists_isStmt_fillSlot`,
  `ForeignWrap.Method.exists_reads_fillRest`: the array is made and filled.
* `ForeignWrap.Method.isStmt_callArray`: it is passed to the foreign function.
-/

namespace ForeignWrap

open Code (Token op word parens brackets braces separated)
open Syntax (Grammar IsExpr IsOperand IsPathWord IsRightSide IsStmt PathWord NameWord PlainType
  PlainValue isName nameExpr)
open Syntax.Parser (AtListEnd Reads ReadsEach)

namespace Call

/-! ## Arguments -/

/-- An argument that reads one of the method, in any case cast to a plain type, or is a plain
value. -/
inductive Arg.IsPlain : Arg → Prop where
  | literal (value : PlainValue) : IsPlain (.literal value.code)
  | unwrap (host : String) (variadic : Bool) : isName host = true →
      IsPlain (.read host .unwrap variadic)
  | handle (host : String) (variadic : Bool) : isName host = true →
      IsPlain (.read host .handle variadic)
  | cast (host : String) (type : PlainType) (variadic : Bool) : isName host = true →
      IsPlain (.read host (.cast type.code) variadic)

/-- What is read from a variable, or is a plain value, can be assigned. -/
theorem Arg.IsPlain.exists_isRightSide {arg : Arg} (h : arg.IsPlain) {var : String}
    (hvar : isName var = true) :
    ∃ e, IsRightSide (Code.sizeOf (arg.codeOn var)) (arg.codeOn var) e ∧ e.HasLayout := by
  have hname := Syntax.hasLayout_nameExpr var
  cases h with
  | literal value =>
    exact ⟨_, (value.isOperand.isRightSide value.isRaw_tree).mono value.one_le_sizeOf_code,
      value.hasLayout⟩
  | unwrap =>
    refine ⟨_, ((Method.isOperand_unwrap hvar).isRightSide rfl).mono ?_,
      Method.hasLayout_askExpr (Method.hasLayout_askExpr hname "ast") "raw"⟩
    simp [Arg.codeOn, Access.code]
  | handle =>
    refine ⟨_, ((Method.isOperand_handle hvar).isRightSide rfl).mono ?_,
      Method.hasLayout_askExpr hname "raw"⟩
    simp [Arg.codeOn, Access.code]
  | cast host type =>
    have hread := (Syntax.isOperand_name var (.inl hvar)).mono (Nat.zero_le (Code.sizeOf type.code))
    refine ⟨_, (hread.isRightSide_cast rfl rfl type.isType).mono ?_, hname, type.hasLayout⟩
    simp [Arg.codeOn, Access.code]
    omega

/-- An argument reads the argument of the method that it names, if it reads one. -/
theorem Arg.IsPlain.exists_code_eq {arg : Arg} (h : arg.IsPlain) :
    ∃ host, isName host = true ∧ arg.code = arg.codeOn host := by
  cases h with
  | literal => exact ⟨"item", by decide, rfl⟩
  | unwrap host _ hhost | handle host _ hhost | cast host _ _ hhost => exact ⟨host, hhost, rfl⟩

theorem Arg.IsPlain.isName_of_host? {arg : Arg} {name : String} (h : arg.IsPlain)
    (hname : arg.host? = some name) : isName name = true := by
  cases h <;> cases hname <;> assumption

end Call

namespace Method

/-! ## The array -/

/-- The path of the type of the length of an array. -/
def lengthType : PlainType :=
  .path true ⟨"std", .inl (by decide)⟩ [⟨"os", .inl (by decide)⟩, ⟨"raw", .inl (by decide)⟩,
    ⟨"c_uint", .inl (by decide)⟩]

/-- The type of the array. -/
def arrayType (handleType : PlainType) : PlainType :=
  .applied false [] ⟨"Vec", by decide⟩ [handleType]

theorem arrayType_code (handleType : PlainType) :
    (arrayType handleType).code = word "Vec" ++ op "<" ++ handleType.code ++ op ">" := by
  simp [arrayType, PlainType.code, PlainType.codes, Grammar.angledPathCode, Grammar.angledCode,
    separated]

/-- The array is made by a statement. -/
theorem exists_isStmt_makeArray (handleType : PlainType) (sequence : String) (fixed : Nat) :
    ∃ s, IsStmt (Code.sizeOf (Step.makeArray handleType.code sequence fixed).code)
      (Step.makeArray handleType.code sequence fixed).code s ∧ s.HasLayout := by
  have hcode : (Step.makeArray handleType.code sequence fixed).code =
      letCode (word "mut" ++ word "cargs" ++ op ":" ++ (arrayType handleType).code)
        (word "vec" ++ op "!" ++ brackets (callCode (rootPathCode ["std", "ptr", "null_mut"]) [] ++
          op ";" ++ methodCode (word sequence) "len" [] ++ op "+" ++ numberCode fixed)) := by
    simp only [Step.code, arrayType_code, List.append_assoc]
  have hsize : Code.sizeOf (arrayType handleType).code + 1 ≤
      Code.sizeOf (Step.makeArray handleType.code sequence fixed).code := by
    rw [hcode]
    simp [letCode]
    omega
  rw [hcode] at hsize ⊢
  have hvalue := (Syntax.isOperand_macro (callCode (rootPathCode ["std", "ptr", "null_mut"]) [] ++
    op ";" ++ methodCode (word sequence) "len" [] ++ op "+" ++ numberCode fixed)
    (show isName "vec" = true by decide)).isExpr rfl
  exact ⟨_, Syntax.isStmt_letMut (by omega) (by decide)
    ((arrayType handleType).isType.mono (by omega)) (hvalue.mono (by omega)),
    trivial, ⟨trivial, trivial, (arrayType handleType).hasLayout⟩, trivial, trivial⟩

/-! ## Slots -/

theorem beginsExprStmt_slot (index rest : List Token) :
    Grammar.BeginsExprStmt (slotCode index ++ (op "=" ++ rest)) := by
  rw [slotCode, List.append_assoc]
  exact Grammar.beginsExprStmt_wordPath false "cargs" [] (.inl (by decide)) (List.forall_mem_nil _)
    rfl rfl rfl (by decide)

/-- A value is put into a slot by a statement. -/
theorem isStmt_assignCode {depth : Nat} {index value : List Token} {i e : Syntax.Expr}
    (hindex : ∀ d, depth ≤ d → Reads ((Grammar.atDepth d).expr true) index i [])
    (hvalue : IsRightSide depth value e) :
    IsStmt depth (assignCode index value)
      (.exprStmt (.assign (.index (nameExpr "cargs") i) e) true) :=
  Syntax.isStmt_assign (((Syntax.isOperand_name "cargs" (.inl (by decide))).mono
    (Nat.zero_le depth)).index hindex) hvalue (beginsExprStmt_slot index) rfl rfl

theorem exists_isStmt_fillSlot (slot : Nat) {value : Call.Arg} (hvalue : value.IsPlain) :
    ∃ s, IsStmt (Code.sizeOf (Step.fillSlot slot value).code) (Step.fillSlot slot value).code s ∧
      s.HasLayout := by
  obtain ⟨host, hhost, hcode⟩ := hvalue.exists_code_eq
  obtain ⟨e, he, hlayout⟩ := hvalue.exists_isRightSide hhost
  rw [← hcode] at he
  have hsize : Code.sizeOf value.code + 1 ≤ Code.sizeOf (Step.fillSlot slot value).code := by
    simp [assignCode, slotCode]
    omega
  have hindex : ∀ d, 1 ≤ d →
      Reads ((Grammar.atDepth d).expr true) (numberCode slot) (.literal (toString slot)) [] :=
    fun d hd => (Syntax.isOperand_literal (toString slot)).isExpr rfl d hd .none
  exact ⟨_, isStmt_assignCode (fun d hd => hindex d (by omega)) (he.mono (by omega)),
    ⟨Syntax.hasLayout_nameExpr "cargs", trivial⟩, hlayout⟩

/-- What stands for an element of the sequence. -/
theorem isName_item : isName "item" = true := by
  decide

/-- The place of the slot of an element. -/
theorem reads_elementIndex {d : Nat} (fixed : Nat) (hd : 2 ≤ d) :
    Reads ((Grammar.atDepth d).expr true) (word "i" ++ op "+" ++ numberCode fixed)
      (.binary .add (nameExpr "i") (.literal (toString fixed))) [] := by
  have hindex : IsExpr 2 (word "i" ++ op "+" ++ numberCode fixed)
      (.binary .add (nameExpr "i") (.literal (toString fixed))) :=
    (Syntax.isOperand_name "i" (.inl (by decide))).isExpr_add
      (Syntax.isOperand_literal (toString fixed)) rfl rfl rfl
  have hread : Reads ((Grammar.atDepth d).expr true)
      (word "i" ++ op "+" ++ numberCode fixed ++ []) _ [] := hindex d hd .none
  rwa [List.append_nil] at hread

/-- The elements are put into their slots by a loop. -/
theorem exists_reads_fillRest (sequence : String) (fixed : Nat) {element : Call.Arg}
    (hsequence : isName sequence = true) (helement : element.IsPlain) :
    ∃ s, s.HasLayout ∧ ∀ d, Code.sizeOf (Step.fillRest sequence fixed element).code ≤ d →
      ∀ rest, Grammar.EndsBlockStmt rest →
        Reads (Grammar.atDepth d).stmtOrEmpty
          ((Step.fillRest sequence fixed element).code ++ rest) s rest := by
  obtain ⟨e, he, hlayout⟩ := helement.exists_isRightSide isName_item
  have hcode : (Step.fillRest sequence fixed element).code =
      Grammar.forCode (parens (word "i" ++ op "," ++ word "item"))
        (methodCode (methodCode (word sequence) "iter" []) "enumerate" [])
        (assignCode (word "i" ++ op "+" ++ numberCode fixed) (element.codeOn "item")) := by
    simp only [Step.code, Grammar.forCode, List.append_assoc]
  have hsize : Code.sizeOf (element.codeOn "item") + 6 ≤
      Code.sizeOf (Step.fillRest sequence fixed element).code := by
    rw [hcode]
    simp [Grammar.forCode, assignCode, slotCode]
    omega
  have hiter : IsExpr 1 (methodCode (methodCode (word sequence) "iter" []) "enumerate" [])
      (askExpr (askExpr (nameExpr sequence) "iter") "enumerate") :=
    (((Syntax.isOperand_name sequence (.inl hsequence)).methodCall_nil "iter" rfl
      (by decide)).methodCall_nil "enumerate" rfl (by decide)).isExpr rfl
  obtain ⟨s, hassign, hs⟩ : ∃ s, IsStmt (Code.sizeOf (element.codeOn "item") + 2)
      (assignCode (word "i" ++ op "+" ++ numberCode fixed) (element.codeOn "item")) s ∧
        s.HasLayout :=
    ⟨_, isStmt_assignCode (fun d hd => reads_elementIndex fixed (by omega))
      (he.mono (Nat.le_add_right _ _)), ⟨Syntax.hasLayout_nameExpr "cargs",
      Syntax.hasLayout_nameExpr "i", trivial⟩, hlayout⟩
  have hsource := hasLayout_askExpr (hasLayout_askExpr (Syntax.hasLayout_nameExpr sequence) "iter")
    "enumerate"
  refine ⟨.exprStmt (.forLoop none (Grammar.pairPat "i" "item")
    (askExpr (askExpr (nameExpr sequence) "iter") "enumerate") (Syntax.stmtsBlock [s])) false,
    ⟨⟨trivial, trivial, trivial⟩, hsource,
      Syntax.hasLayout_stmtsBlock (List.forall_mem_singleton.2 hs)⟩, fun d hd rest hrest => ?_⟩
  rw [hcode]
  obtain _ | d := d
  · omega
  have hbody : Reads (Grammar.atDepth (d + 1)).stmts [assignCode (word "i" ++ op "+" ++
      numberCode fixed) (element.codeOn "item")].flatten [s] [] :=
    Syntax.reads_stmts_closed (by omega) (.cons hassign .nil)
  rw [List.flatten_singleton] at hbody
  exact Syntax.reads_forStmt (Nat.le_refl 2) (by omega) (by decide) isName_item
    (hiter.mono (by omega)) rfl hbody hrest

/-! ## The call -/

/-- The arguments of the call of a function that takes an array. -/
def arrayArgs : List Syntax.Expr :=
  [nameExpr "raw_ctx", .cast (askExpr (nameExpr "cargs") "len") lengthType.tree,
    askExpr (nameExpr "cargs") "as_ptr"]

theorem hasLayout_of_mem_arrayArgs : ∀ arg ∈ arrayArgs, arg.HasLayout := by
  have hcargs := Syntax.hasLayout_nameExpr "cargs"
  exact List.forall_mem_cons.2 ⟨Syntax.hasLayout_nameExpr "raw_ctx", List.forall_mem_cons.2
    ⟨⟨hasLayout_askExpr hcargs "len", lengthType.hasLayout⟩,
      List.forall_mem_singleton.2 (hasLayout_askExpr hcargs "as_ptr")⟩⟩

/-- The array is passed to the foreign function by its length and by where it begins. -/
theorem isStmt_callArray {function : String} (hfunction : isName function = true) :
    IsStmt (Code.sizeOf (Step.call function .array).code) (Step.call function .array).code
      (foreignCall function arrayArgs) := by
  have hlength : ∀ depth, Code.sizeOf lengthType.code + 1 ≤ depth → ∀ rest, AtListEnd rest →
      Reads ((Grammar.atDepth depth).expr true)
        (methodCode (word "cargs") "len" [] ++ word "as" ++ lengthType.code ++ rest)
        (.cast (askExpr (nameExpr "cargs") "len") lengthType.tree) rest := by
    intro depth hdepth rest hrest
    obtain _ | depth := depth
    · cases hdepth
    have hends : Syntax.EndsExpr true rest := .of_atListEnd hrest
    exact ((Syntax.isOperand_name "cargs" (.inl (by decide))).methodCall_nil "len" rfl
      (by decide)).reads_cast (Nat.zero_le depth) rfl rfl hends
      (lengthType.isType depth (Nat.le_of_succ_le_succ hdepth) false (.of_endsExpr hends))
  have hargs : ∀ depth, Code.sizeOf lengthType.code + 1 ≤ depth →
      ReadsEach ((Grammar.atDepth depth).expr true)
        [word "raw_ctx", methodCode (word "cargs") "len" [] ++ word "as" ++ lengthType.code,
          methodCode (word "cargs") "as_ptr" []] arrayArgs := by
    intro depth hdepth
    refine .cons ⟨by simp [word], fun rest hrest => ?_⟩ (.cons ⟨?_, hlength depth hdepth⟩
      (.cons ⟨?_, fun rest hrest => ?_⟩ .nil))
    · exact (Syntax.isOperand_name "raw_ctx" (.inl (by decide))).isExpr rfl depth (by omega)
        (.of_atListEnd hrest)
    · simp [word]
    · simp [methodCode, callCode, word]
    · exact ((Syntax.isOperand_name "cargs" (.inl (by decide))).methodCall_nil "as_ptr" rfl
        (by decide)).isExpr rfl depth (by omega) (.of_atListEnd hrest)
  have hgiven : CallArgs.array.codeWithContext = separated (op ",") [word "raw_ctx",
      methodCode (word "cargs") "len" [] ++ word "as" ++ lengthType.code,
      methodCode (word "cargs") "as_ptr" []] := rfl
  refine (isStmt_call hfunction hgiven hargs).mono ?_
  simp [hgiven, letCode, methodCode, callCode, separated]
  omega

end Method

end ForeignWrap
