import ForeignWrap.Proofs.Method.Array
import ForeignWrap.Proofs.Method.Item
import ForeignWrap.Proofs.Syntax.ImplBlock

/-!
# Bodies of methods as code

The body of a method whose types are all plain is read as statements, whatever it does.

## Main definitions

* `ForeignWrap.Directive.IsPlain`: a directive whose types are plain.
* `ForeignWrap.Method.exists_reads_body`: what a directive asks for has a body that is read.
* `ForeignWrap.Method.exists_reads_distinct`: so has the method that tells values apart.
-/

namespace ForeignWrap

open Code (Token word op braces brackets parens separated)
open Syntax (Grammar IsOperand IsStmt PathWord PlainType PlainValue Written isName nameExpr)
open Syntax.Parser (CollectsIn Reads ReadsEach endStep reads_endStep reads_endStep_none
  reads_untilEnd)

namespace Syntax

/-- A text that says a plain type, if it says a type. -/
def SaysPlainType (text : String) : Prop :=
  ∀ written, typeOf text = .ok written → ∃ type : PlainType, written = ⟨type.tree, type.code⟩

/-- A text that is the code of a plain type says that type. -/
theorem saysPlainType_of_tokensOf {text : String} (type : PlainType)
    (hcode : (tokensOf text).toOption = some type.code)
    (hwritten : (typeOf text).toOption.map (·.tokens) = some type.code) : SaysPlainType text := by
  intro written h
  rw [h] at hwritten
  have hwritten : written.tokens = type.code := Option.some.inj hwritten
  obtain ⟨tokens, htokens, h⟩ := bind_eq_ok_iff.1 h
  rw [htokens] at hcode
  obtain rfl : tokens = type.code := Option.some.inj hcode
  obtain ⟨⟨tree, code⟩, hrun, h⟩ := bind_eq_ok_iff.1 h
  cases h
  obtain ⟨last, hread, -, -⟩ := run_eq_ok hrun
  have htree := type.isType (Code.sizeOf type.code + 2) (Nat.le_add_right _ _) true .none
  rw [List.append_nil] at htree
  obtain rfl := (htree.eq_of_eq_ok hread).1
  exact ⟨type, congrArg (Written.mk type.tree) hwritten⟩

example : SaysPlainType "fn(&[u8; 4], (Int, *mut u8)) -> Bool" :=
  saysPlainType_of_tokensOf
    (.functionTo ⟨false, none⟩
      [.reference none false (.array (.path false ⟨"u8", .inl (by decide)⟩ []) (.literal "4")),
        .tuple (.path false ⟨"Int", .inl (by decide)⟩ [])
          [.pointer true (.path false ⟨"u8", .inl (by decide)⟩ [])]]
      (.path false ⟨"Bool", .inl (by decide)⟩ []))
    (by decide +kernel) (by decide +kernel)

end Syntax

namespace Directive

/-- A foreign argument that reads one of the method, in any case cast to a plain type, or is a
plain value. -/
inductive ForeignArg.IsPlain : ForeignArg → Prop where
  | literal {code : String} :
      (∀ tokens, Syntax.tokensOf code = .ok tokens → ∃ value : PlainValue, tokens = value.code) →
      IsPlain (.literal code)
  | handle (text : String) : IsPlain (.reference text none)
  | cast (text : String) {type : String} : Syntax.SaysPlainType type →
      IsPlain (.reference text (some type))

theorem ForeignArg.isPlain_literal {code : String} (value : PlainValue)
    (h : (Syntax.tokensOf code).toOption = some value.code) : IsPlain (.literal code) := by
  refine .literal fun tokens htokens => ⟨value, ?_⟩
  rw [htokens] at h
  exact Option.some.inj h

/-- A directive whose types are plain, and whose literals are plain values. -/
structure IsPlain (d : Directive) : Prop where
  result : Syntax.SaysPlainType d.result
  receiver : ∀ receiver, d.receiver? = some receiver →
    Syntax.SaysPlainType (withoutReference receiver.type)
  params : ∀ arg ∈ d.params, Syntax.SaysPlainType arg.type
  foreign : ∀ arg ∈ d.foreignArgs, arg.IsPlain

end Directive

namespace Call

theorem exists_plainType_of_typeAs_eq_ok {part : Directive.Part} {text : String}
    {written : Syntax.Written .type} (hplain : Syntax.SaysPlainType text)
    (h : typeAs part text = .ok written) : ∃ type : PlainType, written = ⟨type.tree, type.code⟩ :=
  hplain written (mapError_eq_ok_iff.1 h)

theorem stands_of_isPlain {foreign : Directive.ForeignArg} (h : foreign.IsPlain) :
    Stands foreign := by
  cases h with
  | literal hcode =>
    intro tokens htokens
    obtain ⟨value, rfl⟩ := hcode tokens htokens
    exact ⟨_, isArgument_plain value⟩
  | handle => trivial
  | cast text htype =>
    intro written hwritten
    obtain ⟨type, rfl⟩ := htype written hwritten
    exact isCastType_plain type

/-- What a plain argument is passed as has a layout. -/
theorem Passes.hasLayout {config : Config} {d : Directive} {foreign : Directive.ForeignArg}
    {e : Syntax.Expr} (h : Passes config d foreign e) (hforeign : foreign.IsPlain) :
    e.HasLayout := by
  cases h with
  | literal htokens hargument =>
    cases hforeign with
    | literal hcode =>
      obtain ⟨value, rfl⟩ := hcode _ htokens
      rw [(isArgument_plain value).eq hargument]
      exact value.hasLayout
  | @cast _ _ name _ _ _ _ hwritten =>
    cases hforeign with
    | cast _ htype =>
      obtain ⟨type, rfl⟩ := htype _ hwritten
      exact ⟨Syntax.hasLayout_nameExpr name, type.hasLayout⟩
  | @unwrap _ name =>
    exact Method.hasLayout_askExpr (Method.hasLayout_askExpr (Syntax.hasLayout_nameExpr name) _) _
  | @handle _ name => exact Method.hasLayout_askExpr (Syntax.hasLayout_nameExpr name) _

/-- What a plain argument is bound to is plain. -/
theorem isPlain_of_bindArg_eq_ok {config : Config} {d : Directive}
    {foreign : Directive.ForeignArg} {arg : Arg} (hforeign : foreign.IsPlain)
    (h : bindArg config d foreign = .ok arg) : arg.IsPlain := by
  cases foreign with
  | literal code =>
    obtain ⟨tokens, htokens, rfl⟩ := map_eq_ok_iff.1 h
    cases hforeign with
    | literal hcode =>
      obtain ⟨value, rfl⟩ := hcode tokens (mapError_eq_ok_iff.1 htokens)
      exact .literal value
  | reference text cast =>
    simp only [bindArg] at h
    cases hhost : d.hostArg? (Directive.splitMarker text).1 with
    | none =>
      rw [hhost] at h
      cases h
    | some host =>
      rw [hhost] at h
      simp only [bind_eq_ok_iff] at h
      obtain ⟨access, haccess, name, hname, h⟩ := h
      cases h
      have hname := isName_of_identifier_eq_ok hname
      cases hforeign with
      | handle =>
        obtain rfl := Except.ok.inj haccess
        split
        · exact .unwrap name host.variadic hname
        · exact .handle name host.variadic hname
      | cast _ htype =>
        obtain ⟨written, hwritten, rfl⟩ := map_eq_ok_iff.1 haccess
        obtain ⟨type, rfl⟩ := exists_plainType_of_typeAs_eq_ok htype hwritten
        exact .cast name type host.variadic hname

end Call

namespace Method

/-! ## Answers -/

/-- The path of the function that converts a value to a type. -/
theorem convertPath_eq (rooted : Bool) (first : PathWord) (more : List PathWord) :
    (PlainType.path rooted first more).code ++ op "::" ++ word "from" =
      Grammar.wordPathCode rooted first.1 (more.map (·.1) ++ ["from"]) := by
  simp [PlainType.code, Grammar.wordPathCode, Grammar.partsCode]

theorem forall_mem_convertPath (more : List PathWord) :
    ∀ text ∈ more.map (·.1) ++ ["from"], Syntax.IsPathWord text :=
  List.forall_mem_append.2 ⟨Syntax.forall_mem_words more, by simp [Syntax.IsPathWord]; decide⟩

/-- The function that converts a value to a type is an operand. -/
theorem isOperand_convert (rooted : Bool) (first : PathWord) (more : List PathWord) :
    IsOperand 0 ((PlainType.path rooted first more).code ++ op "::" ++ word "from")
      (Grammar.wordPathExpr rooted first.1 (more.map (·.1) ++ ["from"])) := by
  rw [convertPath_eq]
  exact Syntax.isOperand_wordPath rooted first.2 (forall_mem_convertPath more)

/-- The kind of a value that is not known yet. -/
theorem isOperand_unknownKind : IsOperand 0 (pathCode ["Kind", "Unknown"])
    (Grammar.wordPathExpr false "Kind" ["Unknown"]) :=
  Syntax.isOperand_wordPath false (.inl (by decide)) (by simp [Syntax.IsPathWord]; decide)

/-- An answer whose type is plain, and a path without arguments where it has to be one. -/
inductive Answer.IsPlain : Answer → Prop where
  | lift : IsPlain .lift
  | convert (rooted : Bool) (first : PathWord) (more : List PathWord) :
      IsPlain (.convert (PlainType.path rooted first more).code)
  | convertQualified (type : PlainType) : IsPlain (.convertQualified type.code)

/-- An answer is read as the last statement of a body. -/
theorem Answer.IsPlain.exists_reads {answer : Answer} (h : answer.IsPlain) :
    ∃ s, s.HasLayout ∧ ∀ d, Code.sizeOf answer.code ≤ d →
      Reads (Grammar.atDepth d).stmtOrEmpty answer.code s [] := by
  have hast : ∀ d, 1 ≤ d →
      ReadsEach ((Grammar.atDepth d).expr true) [word "ast"] [nameExpr "ast"] :=
    fun d hd => readsEach_names ["ast"] hd (by decide)
  have hlayout := Syntax.hasLayout_names ["ast"]
  cases h with
  | lift =>
    have hkind : ∀ d, 1 ≤ d → ReadsEach ((Grammar.atDepth d).expr true)
        [pathCode ["Kind", "Unknown"]] [Grammar.wordPathExpr false "Kind" ["Unknown"]] :=
      fun d hd => .cons ⟨by simp [pathCode, separated, word], fun rest hrest =>
        isOperand_unknownKind.isExpr rfl d hd (.of_atListEnd hrest)⟩ .nil
    have hlift : IsOperand 1 Answer.lift.code _ :=
      ((Syntax.isOperand_name "ast" (.inl (by decide))).mono (Nat.zero_le 1)).methodCall "lift" rfl
        (by decide) hkind
    have hbegins : Grammar.BeginsExprStmt Answer.lift.code :=
      Grammar.beginsExprStmt_wordPath false "ast" [] (.inl (by decide)) (List.forall_mem_nil _)
        rfl rfl rfl (by decide)
    have hkind : (Grammar.wordPathExpr false "Kind" ["Unknown"]).HasLayout :=
      Syntax.hasLayout_wordPath false "Kind" ["Unknown"]
    exact ⟨_, hasLayout_methodCall (Syntax.hasLayout_nameExpr "ast") "lift"
      (List.forall_mem_singleton.2 hkind),
      fun d hd => hlift.reads_last (Nat.le_trans (by decide) hd) hbegins rfl ⟨by simp, by simp⟩⟩
  | convert rooted first more =>
    have hcall := ((isOperand_convert rooted first more).mono (Nat.zero_le 1)).call hast
    have hbegins : Grammar.BeginsExprStmt
        (Answer.convert (PlainType.path rooted first more).code).code := by
      rw [Answer.code, callCode, convertPath_eq]
      exact Grammar.beginsExprStmt_wordPath rooted first.1 _ first.2 (forall_mem_convertPath more)
        rfl rfl rfl (by simp)
    refine ⟨_, hasLayout_call (Syntax.hasLayout_wordPath rooted first.1 _) hlayout,
      fun d hd => hcall.reads_last (Nat.le_trans ?_ hd) hbegins rfl ⟨by simp, by simp⟩⟩
    simp [callCode]
    omega
  | convertQualified type =>
    have hfrom : isName "from" = true := by decide
    have hpath := (Syntax.isOperand_typedPath hfrom type.isType).mono (Nat.le_add_right _ 1)
    have hcall := hpath.call fun d hd => hast d (by omega)
    have hbegins : Grammar.BeginsExprStmt (Answer.convertQualified type.code).code := by
      simp only [Answer.code, callCode, List.append_assoc]
      exact Grammar.beginsExprStmt_angle _
    refine ⟨_, hasLayout_call (Syntax.hasLayout_typedPath type.hasLayout "from") hlayout,
      fun d hd => hcall.reads_last (Nat.le_trans ?_ hd) hbegins rfl ⟨by simp, by simp⟩⟩
    simp [callCode]
    omega

/-! ## Telling values apart -/

/-- The receiver and another value, both as values of a type, are told apart by an expression. -/
theorem exists_reads_distinct (rooted : Bool) (first : PathWord) (more : List PathWord)
    {other : String} (hother : isName other = true) :
    ∃ stmts : List Syntax.Stmt, (∀ s ∈ stmts, s.HasLayout) ∧
      ∀ d, Code.sizeOf (Body.distinct (PlainType.path rooted first more).code other).code ≤ d →
        Reads (Grammar.atDepth d).stmts
          (Body.distinct (PlainType.path rooted first more).code other).code stmts [] := by
  have hclone : ∀ name, Syntax.IsPathWord name → ∀ d, 1 ≤ d →
      ReadsEach ((Grammar.atDepth d).expr true) [methodCode (word name) "clone" []]
        [askExpr (nameExpr name) "clone"] := fun name hname d hd =>
    .cons ⟨by simp [methodCode, callCode, word], fun rest hrest =>
      ((Syntax.isOperand_name name hname).methodCall_nil "clone" rfl (by decide)).isExpr rfl d hd
        (.of_atListEnd hrest)⟩ .nil
  have hconverted : ∀ name, Syntax.IsPathWord name → Syntax.IsExpr 2
      (callCode ((PlainType.path rooted first more).code ++ op "::" ++ word "from")
        [methodCode (word name) "clone" []])
      (.call (Grammar.wordPathExpr rooted first.1 (more.map (·.1) ++ ["from"]))
        (.ofList [askExpr (nameExpr name) "clone"])) := fun name hname =>
    (((isOperand_convert rooted first more).mono (Nat.zero_le 1)).call
      (hclone name hname)).isExpr rfl
  have harray : IsOperand 2 (brackets (separated (op ",")
      (["self", other].map fun name =>
        callCode ((PlainType.path rooted first more).code ++ op "::" ++ word "from")
          [methodCode (word name) "clone" []])))
      (.array (.ofList (["self", other].map fun name =>
        .call (Grammar.wordPathExpr rooted first.1 (more.map (·.1) ++ ["from"]))
          (.ofList [askExpr (nameExpr name) "clone"])))) :=
    Syntax.isOperand_array fun d hd =>
      .cons ⟨by simp [callCode, word], fun rest hrest =>
        hconverted "self" (.inr (by decide)) d hd (.of_atListEnd hrest)⟩
      (.cons ⟨by simp [callCode, word], fun rest hrest =>
        hconverted other (.inl hother) d hd (.of_atListEnd hrest)⟩ .nil)
  have hcall := (((Syntax.isOperand_name "self" (.inr (by decide))).methodCall_nil "ctx" rfl
    (by decide)).mono (Nat.zero_le 4)).methodCall "distinct" rfl (by decide) fun d hd =>
      .cons ⟨by simp [referenceCode, op, Code.opSigns], fun rest hrest =>
        harray.isExpr_reference rfl rfl rfl (by simp [brackets]) d hd (.of_atListEnd hrest)⟩ .nil
  have hbegins : Grammar.BeginsExprStmt
      (Body.distinct (PlainType.path rooted first more).code other).code :=
    Grammar.beginsExprStmt_wordPath false "self" [] (.inr (by decide)) (List.forall_mem_nil _)
      rfl rfl rfl (by decide)
  have hsize :
      5 ≤ Code.sizeOf (Body.distinct (PlainType.path rooted first more).code other).code := by
    simp [methodCode, callCode, separated]
    omega
  have hvalues : (Syntax.Tree.reference false (.array (.ofList (["self", other].map fun name =>
      .call (Grammar.wordPathExpr rooted first.1 (more.map (·.1) ++ ["from"]))
        (.ofList [askExpr (nameExpr name) "clone"]))))).HasLayout :=
    Syntax.Tree.hasLayout_ofList (List.forall_mem_map.2 fun name _ =>
      hasLayout_call (Syntax.hasLayout_wordPath rooted first.1 _)
        (List.forall_mem_singleton.2 (hasLayout_askExpr (Syntax.hasLayout_nameExpr name) "clone")))
  obtain ⟨s, hlayout, hs⟩ : ∃ s : Syntax.Stmt, s.HasLayout ∧ ∀ d, 4 ≤ d →
      Reads (Grammar.atDepth d).stmtOrEmpty
        (Body.distinct (PlainType.path rooted first more).code other).code s [] :=
    ⟨_, hasLayout_methodCall (hasLayout_askExpr (Syntax.hasLayout_nameExpr "self") "ctx") "distinct"
      (List.forall_mem_singleton.2 hvalues),
      fun d hd => hcall.reads_last hd hbegins rfl ⟨by simp, by simp⟩⟩
  have hne : (Body.distinct (PlainType.path rooted first more).code other).code ≠ [] := by
    simp [methodCode, callCode, word]
  refine ⟨[s], List.forall_mem_singleton.2 hlayout, fun d hd => ?_⟩
  obtain _ | d := d
  · omega
  have hread := Syntax.reads_stmts (Nat.zero_le d) .nil hne (hs d (by omega))
  exact hread

/-! ## Steps -/

theorem Answer.code_ne_nil (answer : Answer) : answer.code ≠ [] := by
  cases answer <;> simp [methodCode, callCode, parens]

/-- A step that is read as a statement, which has a layout. -/
def Step.IsStatement (step : Step) : Prop :=
  ∃ s, IsStmt (Code.sizeOf step.code) step.code s ∧ s.HasLayout

theorem Step.two_le_sizeOf_code (step : Step) : 2 ≤ Code.sizeOf step.code := by
  cases step <;>
    simp [letCode, assignCode, slotCode, keepAliveCode, callCode] <;>
    omega

theorem Step.isStatement_of_le {step : Step} {depth : Nat} {s : Syntax.Stmt} (hdepth : depth ≤ 2)
    (h : IsStmt depth step.code s) (hlayout : s.HasLayout) : step.IsStatement :=
  ⟨s, h.mono (Nat.le_trans hdepth step.two_le_sizeOf_code), hlayout⟩

theorem sizeOf_code_le_of_mem {ss : List Step} {step : Step} (answer : Answer) (h : step ∈ ss) :
    Code.sizeOf step.code ≤ Code.sizeOf (Body.wrap ss answer).code := by
  rw [Body.code, Code.sizeOf_append]
  refine Nat.le_trans ?_ (Nat.le_add_right _ _)
  induction ss with
  | nil => cases h
  | cons first ss ih =>
    rw [List.flatMap_cons, Code.sizeOf_append]
    obtain rfl | h := List.mem_cons.1 h
    · exact Nat.le_add_right _ _
    · exact Nat.le_trans (ih h) (Nat.le_add_left _ _)

theorem sizeOf_answer_le (ss : List Step) (answer : Answer) :
    Code.sizeOf answer.code ≤ Code.sizeOf (Body.wrap ss answer).code := by
  rw [Body.code, Code.sizeOf_append]
  exact Nat.le_add_left _ _

theorem exists_stmts {depth : Nat} {ss : List Step} (h : ∀ step ∈ ss, step.IsStatement)
    (hdepth : ∀ step ∈ ss, Code.sizeOf step.code ≤ depth) :
    ∃ stmts, (∀ s ∈ stmts, s.HasLayout) ∧
      List.Forall₂ (fun step => IsStmt depth step.code) ss stmts := by
  obtain ⟨stmts, hstmts⟩ := exists_forall₂ h
  have hread := (List.forall₂_and_left _ _).2 ⟨hdepth, hstmts⟩
  exact ⟨stmts, forall_mem_of_forall₂ hstmts.flip fun _ _ hs => hs.2,
    hread.imp fun _ _ hs => hs.2.1.mono hs.1⟩

/-- The statements of some steps and an answer are read one after another. -/
theorem exists_reads_wrap {ss : List Step} {answer : Answer}
    (hsteps : ∀ step ∈ ss, step.IsStatement) (hanswer : answer.IsPlain) :
    ∃ stmts : List Syntax.Stmt, (∀ s ∈ stmts, s.HasLayout) ∧
      ∀ depth, Code.sizeOf (Body.wrap ss answer).code + 1 ≤ depth →
        Reads (Grammar.atDepth depth).stmts (Body.wrap ss answer).code stmts [] := by
  obtain ⟨s, hlast, hs⟩ := hanswer.exists_reads
  obtain ⟨stmts, hlayout, hstmts⟩ := exists_stmts hsteps fun _ => sizeOf_code_le_of_mem answer
  refine ⟨stmts ++ [s], List.forall_mem_append.2 ⟨hlayout, List.forall_mem_singleton.2 hlast⟩,
    fun depth hdepth => ?_⟩
  obtain _ | depth := depth
  · cases hdepth
  have hdepth := Nat.le_of_succ_le_succ hdepth
  exact Syntax.reads_stmts hdepth (List.forall₂_map_left_iff.2 hstmts) answer.code_ne_nil
    (hs depth (Nat.le_trans (sizeOf_answer_le ss answer) hdepth))

/-- The same with a loop among the steps, where a block may end. -/
theorem exists_reads_wrap_loop {before after : List Step} {loop : Step} {body : Syntax.Stmt}
    {answer : Answer} (hbefore : ∀ step ∈ before, step.IsStatement) (hbody : body.HasLayout)
    (hloop : ∀ d, Code.sizeOf loop.code ≤ d → ∀ rest, Grammar.EndsBlockStmt rest →
      Reads (Grammar.atDepth d).stmtOrEmpty (loop.code ++ rest) body rest)
    (hafter : ∀ step ∈ after, step.IsStatement)
    (hends : Grammar.EndsBlockStmt (after.flatMap (·.code) ++ answer.code))
    (hanswer : answer.IsPlain) :
    ∃ stmts : List Syntax.Stmt, (∀ s ∈ stmts, s.HasLayout) ∧
      ∀ depth, Code.sizeOf (Body.wrap (before ++ loop :: after) answer).code + 1 ≤ depth →
        Reads (Grammar.atDepth depth).stmts (Body.wrap (before ++ loop :: after) answer).code stmts
          [] := by
  have hcode : (Body.wrap (before ++ loop :: after) answer).code =
      before.flatMap (·.code) ++ (loop.code ++ (after.flatMap (·.code) ++ answer.code)) := by
    simp only [Body.code, List.flatMap_append, List.flatMap_cons, List.append_assoc]
  have hsize : ∀ step ∈ before ++ loop :: after, Code.sizeOf step.code ≤
      Code.sizeOf (Body.wrap (before ++ loop :: after) answer).code :=
    fun _ => sizeOf_code_le_of_mem answer
  have hsize' := List.forall_mem_append.1 hsize
  obtain ⟨hloopSize, hafterSize⟩ := List.forall_mem_cons.1 hsize'.2
  obtain ⟨s, hlast, hs⟩ := hanswer.exists_reads
  obtain ⟨start, hstartLayout, hstart⟩ := exists_stmts hbefore hsize'.1
  obtain ⟨finish, hfinishLayout, hfinish⟩ := exists_stmts hafter hafterSize
  have hlayout : ∀ stmt ∈ start ++ body :: (finish ++ [s]), stmt.HasLayout :=
    List.forall_mem_append.2 ⟨hstartLayout, List.forall_mem_cons.2 ⟨hbody,
      List.forall_mem_append.2 ⟨hfinishLayout, List.forall_mem_singleton.2 hlast⟩⟩⟩
  refine ⟨start ++ body :: (finish ++ [s]), hlayout, fun depth hdepth => ?_⟩
  obtain _ | depth := depth
  · cases hdepth
  have hdepth := Nat.le_of_succ_le_succ hdepth
  have hends' : CollectsIn (endStep (Grammar.atDepth depth).stmtOrEmpty)
      (after.flatMap (·.code) ++ answer.code) (finish ++ [s]) [] :=
    Syntax.collectsIn_stmts hdepth (List.forall₂_map_left_iff.2 hfinish) (.more
      (reads_endStep answer.code_ne_nil
        (hs depth (Nat.le_trans (sizeOf_answer_le _ answer) hdepth)))
      (List.length_pos_of_ne_nil answer.code_ne_nil) (.done (reads_endStep_none _)))
  have hlooped : loop.code ≠ [] := fun hnil => by
    have htwo := loop.two_le_sizeOf_code
    rw [hnil] at htwo
    cases htwo
  rw [hcode]
  have hread := hloop depth (Nat.le_trans hloopSize hdepth) _ hends
  refine reads_untilEnd (Syntax.collectsIn_stmts hdepth (List.forall₂_map_left_iff.2 hstart)
    (.more (reads_endStep (by simp [hlooped]) hread) ?_ hends'))
  have hlength := List.length_pos_of_ne_nil hlooped
  simp only [List.length_append]
  omega

/-! ## Bodies -/

/-- A type that is plain and a path of which no part has arguments is a path of words. -/
theorem exists_path_of_isPlainPath {type : PlainType} (h : isPlainPath type.tree = true) :
    ∃ rooted first more, type = .path rooted first more := by
  cases type with
  | path rooted first more => exact ⟨rooted, first, more, rfl⟩
  | applied rooted before name args =>
    simp [PlainType.tree, isPlainPath, Grammar.angledPath, Syntax.Tree.toList_ofList] at h
  | reference | pointer | slice | array | unit | tuple | function | functionTo => cases h

theorem isPlain_answerOf (config : Config) (result : String) (type : PlainType) :
    (answerOf config result ⟨type.tree, type.code⟩).IsPlain := by
  unfold answerOf
  split
  · exact .lift
  · split
    case isTrue h =>
      obtain ⟨rooted, first, more, rfl⟩ := exists_path_of_isPlainPath h
      exact .convert rooted first more
    case isFalse => exact .convertQualified type

theorem isStatement_of_mem_contextSteps {config : Config} {receiver : Directive.HostArg}
    {name : String} (hname : isName name = true) {step : Step}
    (h : step ∈ contextSteps config receiver name) : step.IsStatement := by
  obtain ⟨s, hs, hlayout, -⟩ := exists_isStmt_contextStep hname h
  exact Step.isStatement_of_le (Nat.le_refl 2) hs hlayout

/-- An array of the arguments of a call is made of one of its arguments and the sequence. -/
theorem mem_of_sequence?_eq_some {args : List Call.Arg} {sequence : String} {element : Call.Arg}
    (h : sequence? args = some (sequence, element)) :
    element ∈ args ∧ element.host? = some sequence := by
  simp only [sequence?, Option.bind_eq_bind, Option.bind_eq_some_iff] at h
  obtain ⟨element', helement, host, hhost, h⟩ := h
  cases h
  exact ⟨List.mem_of_getLast? (Option.filter_eq_some_iff.1 helement).1, hhost⟩

theorem mem_of_mem_fixed {args : List Call.Arg} {arg : Call.Arg} (h : arg ∈ Call.fixed args) :
    arg ∈ args := by
  unfold Call.fixed at h
  split at h
  · exact (List.dropLast_sublist args).subset h
  · exact h

theorem isName_of_paramOf_eq_ok {args : List Call.Arg} {host : Directive.HostArg} {param : Param}
    (h : paramOf args host = .ok param) : isName param.name = true := by
  simp only [paramOf, bind_eq_ok_iff] at h
  obtain ⟨name, hname, type, -, h⟩ := h
  cases h
  exact Call.isName_of_identifier_eq_ok hname

/-- The steps of a method without a sequence are statements. -/
theorem isStatement_of_mem_each {config : Config} {d : Directive} {args : List Call.Arg}
    {function receiverName : String} (receiver : Directive.HostArg) {names : List String}
    (hplain : d.IsPlain) (hargs : Call.bind config d = .ok args)
    (hfunction : Call.identifier d.foreignFunction = .ok function)
    (hreceiver : isName receiverName = true) (hnames : ∀ name ∈ names, isName name = true) :
    ∀ step ∈ contextSteps config receiver receiverName ++ .call function (.each args) ::
      names.map .keepAlive, step.IsStatement := by
  intro step hstep
  obtain hstep | hstep := List.mem_append.1 hstep
  · exact isStatement_of_mem_contextSteps hreceiver hstep
  obtain rfl | hstep := List.mem_cons.1 hstep
  · have hstands := fun foreign hforeign => Call.stands_of_isPlain (hplain.foreign foreign hforeign)
    obtain ⟨es, hpasses, hcall⟩ := exists_isStmt_call hstands hargs hfunction
    have hlayout : ∀ e ∈ es, e.HasLayout :=
      forall_mem_of_forall₂ ((List.forall₂_and_left _ _).2 ⟨hplain.foreign, hpasses⟩).flip
        fun _ _ h => h.2.hasLayout h.1
    exact ⟨_, hcall, hasLayout_foreignCall
      (List.forall_mem_cons.2 ⟨Syntax.hasLayout_nameExpr "raw_ctx", hlayout⟩)⟩
  · obtain ⟨name, hname, rfl⟩ := List.mem_map.1 hstep
    exact Step.isStatement_of_le (by decide) (isStmt_keepAlive (hnames name hname))
      (hasLayout_keepAlive (Syntax.hasLayout_nameExpr name))

/-- The steps before the loop of a method with a sequence are statements. -/
theorem isStatement_of_mem_array (config : Config) {args : List Call.Arg} {receiverName : String}
    (receiver : Directive.HostArg) (handleType : PlainType) (sequence : String)
    (hargs : ∀ arg ∈ args, arg.IsPlain) (hreceiver : isName receiverName = true) :
    ∀ step ∈ contextSteps config receiver receiverName ++
        .makeArray handleType.code sequence (Call.fixed args).length ::
          (Call.fixed args).zipIdx.map (fun (value, slot) => .fillSlot slot value),
      step.IsStatement := by
  intro step hstep
  obtain hstep | hstep := List.mem_append.1 hstep
  · exact isStatement_of_mem_contextSteps hreceiver hstep
  obtain rfl | hstep := List.mem_cons.1 hstep
  · exact exists_isStmt_makeArray handleType sequence _
  · obtain ⟨⟨value, slot⟩, hvalue, rfl⟩ := List.mem_map.1 hstep
    have hmem : value ∈ args := mem_of_mem_fixed (List.fst_mem_of_mem_zipIdx hvalue)
    exact exists_isStmt_fillSlot slot (hargs value hmem)

/-- The body of a method whose types are plain is read as statements. -/
theorem exists_reads_body {config : Config} {d : Directive} {docs : List Doc} {m : Method}
    (hplain : d.IsPlain) (hhandle : Syntax.SaysPlainType config.handleType)
    (hm : ofDirective config d docs = .ok m) :
    ∃ stmts : List Syntax.Stmt, (∀ s ∈ stmts, s.HasLayout) ∧
      ∀ depth, Code.sizeOf m.body.code + 1 ≤ depth →
        Reads (Grammar.atDepth depth).stmts m.body.code stmts [] := by
  obtain ⟨w⟩ := nonempty_wrapped hm
  have hname := Call.isName_of_identifier_eq_ok w.receiverName_eq
  have hnames : ∀ name ∈ w.receiverName :: m.params.map (·.name), isName name = true :=
    forall_mem_of_forall₂ w.forall₂_names.flip fun _ _ => Call.isName_of_identifier_eq_ok
  obtain ⟨type, hresult⟩ := Call.exists_plainType_of_typeAs_eq_ok hplain.result w.result_eq
  have hanswer := isPlain_answerOf config d.result type
  rw [w.body_eq, hresult]
  obtain ⟨sequence, element, written, hsequence, hwritten, hsteps⟩ | ⟨-, hsteps⟩ :=
    steps_cases w.steps_eq
  · obtain ⟨handleType, rfl⟩ := Call.exists_plainType_of_typeAs_eq_ok hhandle hwritten
    have hreads : ∀ arg ∈ w.args, arg.IsPlain :=
      forall_mem_of_forall₂ ((List.forall₂_and_left _ _).2
        ⟨hplain.foreign, mapM_eq_ok_iff.1 w.args_eq⟩).flip fun _ _ h =>
          Call.isPlain_of_bindArg_eq_ok h.1 h.2
    obtain ⟨helement, hhost⟩ := mem_of_sequence?_eq_some hsequence
    obtain ⟨loop, hlayout, hloop⟩ := exists_reads_fillRest sequence (Call.fixed w.args).length
      ((hreads element helement).isName_of_host? hhost) (hreads element helement)
    have hcall : (Step.call w.function .array).IsStatement :=
      ⟨_, isStmt_callArray (Call.isName_of_identifier_eq_ok w.function_eq),
        hasLayout_foreignCall hasLayout_of_mem_arrayArgs⟩
    have hkeep : Step.keepArrayAlive.IsStatement :=
      Step.isStatement_of_le (Nat.le_refl 2) isStmt_keepArrayAlive
        (hasLayout_keepAlive (Syntax.hasLayout_nameExpr "cargs"))
    have hafter : ∀ step ∈ [Step.call w.function .array, .keepArrayAlive], step.IsStatement :=
      List.forall_mem_cons.2 ⟨hcall, List.forall_mem_singleton.2 hkeep⟩
    have hbody := exists_reads_wrap_loop
      (isStatement_of_mem_array config w.receiver handleType sequence hreads hname) hlayout hloop
      hafter (by constructor <;> rfl) hanswer
    rw [hsteps]
    simpa [arraySteps] using hbody
  · have hkept : ∀ name ∈ (((w.receiver, w.receiverName) ::
        d.params.zip (m.params.map (·.name))).filter
          fun kept => isRetained config w.args kept.1).map (·.2), isName name = true := by
      intro name hmem
      obtain ⟨⟨host, _⟩, hkept, rfl⟩ := List.mem_map.1 hmem
      obtain hfirst | hmore := List.mem_cons.1 (List.mem_filter.1 hkept).1
      · cases hfirst
        exact hname
      · exact hnames _ (List.mem_cons_of_mem _ (List.of_mem_zip hmore).2)
    have hstatements :=
      isStatement_of_mem_each w.receiver hplain w.args_eq w.function_eq hname hkept
    rw [List.map_map] at hstatements
    rw [hsteps]
    exact exists_reads_wrap hstatements hanswer

end Method

end ForeignWrap
