import ForeignWrap.Proofs.Method.Body

/-!
# Methods of plain types as code

A method whose types are all plain is read as an item, whatever follows it.

## Main definitions

* `ForeignWrap.Syntax.IsItem`: code of an item.
* `ForeignWrap.Method.HeadIsPlain`: a method with plain types in its head.
* `ForeignWrap.Method.exists_isItem`: such a method is an item if its body is read.
-/

namespace ForeignWrap

open Code (Token word op braces brackets parens separated)
open Syntax (Grammar PlainType isName)
open Syntax.Parser (AtListEnd Reads)

namespace Syntax

/-- To the depth `depth` and deeper, the code is read as the item, whatever follows it. -/
def IsItem (depth : Nat) (code : List Token) (item : Item) : Prop :=
  code ≠ [] ∧ ∀ d, depth ≤ d → ∀ rest, Reads (Grammar.atDepth d).item (code ++ rest) item rest

/-- A plain type begins no parameters of an impl block, and no mark of one. -/
theorem PlainType.beginsImplType (type : PlainType) (rest : List Token) :
    Grammar.BeginsImplType (type.code ++ rest) :=
  have hbegins := type.begins rest
  ⟨hbegins.params, hbegins.const, hbegins.question, hbegins.bang⟩

end Syntax

/-! ## Documentation -/

/-- A line of documentation is an attribute with a literal for its value. -/
theorem Doc.exists_code_eq (doc : Doc) :
    ∃ text, doc.code = op "#" ++ brackets (word "doc" ++ (op "=" ++ [.literal text])) :=
  ⟨_, rfl⟩

/-- Lines of documentation are attributes. -/
theorem Doc.exists_attributes (docs : List Doc) :
    ∃ contents attrs, docs.flatMap (·.code) = contents.flatMap (op "#" ++ brackets ·) ∧
      (∀ a ∈ attrs, a.HasLayout) ∧
        ∀ g : Grammar, List.Forall₂ g.IsAttribute contents attrs := by
  induction docs with
  | nil => exact ⟨[], [], rfl, List.forall_mem_nil _, fun _ => .nil⟩
  | cons doc docs ih =>
    obtain ⟨contents, attrs, hcontents, hlayout, hattrs⟩ := ih
    obtain ⟨text, htext⟩ := doc.exists_code_eq
    have hdoc : isName "doc" = true := by decide
    refine ⟨_ :: contents, .valueAttribute false ⟨false, ["doc"]⟩ (.literal text) :: attrs, ?_,
      List.forall_mem_cons.2 ⟨trivial, hlayout⟩, fun g =>
        .cons (g.isAttribute_value text hdoc) (hattrs g)⟩
    rw [List.flatMap_cons, List.flatMap_cons, htext, hcontents]

namespace Method

/-! ## Heads -/

/-- The types in the head of a method are plain, and its name and those of its arguments are
names. -/
structure HeadIsPlain (m : Method) : Prop where
  self : ∃ type : PlainType, m.selfType = type.code
  result : ∃ type : PlainType, m.result = type.code
  name : isName m.name = true
  params : ∀ param ∈ m.params, isName param.name = true ∧ ∃ type : PlainType, param.type = type.code

/-- The type that an argument is declared with, given how it is passed. -/
def Passing.declared (type : PlainType) : Passing → PlainType
  | .byValue => type
  | .byReference => .reference none false type
  | .slice => .reference none false (.slice type)

theorem Param.code_eq_declared {param : Param} {type : PlainType} (htype : param.type = type.code) :
    param.code = word param.name ++ (op ":" ++ (param.passing.declared type).code) := by
  rw [Param.code, htype, List.append_assoc]
  cases param.passing <;> rfl

/-- A declared argument is read as that. -/
theorem exists_isParam {param : Param} (hname : isName param.name = true)
    (htype : ∃ type : PlainType, param.type = type.code) :
    ∃ tree, Syntax.Tree.HasLayout tree ∧
      ∀ d, Code.sizeOf param.code ≤ d → (Grammar.atDepth d).IsParam param.code tree := by
  obtain ⟨type, htype⟩ := htype
  have hcode := Param.code_eq_declared htype
  refine ⟨Grammar.typedParam param.name (param.passing.declared type).tree,
    ⟨trivial, trivial, (param.passing.declared type).hasLayout⟩, fun d hd =>
    ⟨by simp [hcode, word], rfl, rfl, fun rest hrest => ?_⟩⟩
  have hsize : Code.sizeOf (param.passing.declared type).code + 1 ≤ Code.sizeOf param.code := by
    simp [hcode]
    omega
  have hends : Syntax.EndsType rest := by
    obtain rfl | ⟨joint, more, rfl⟩ := hrest
    · exact .none
    · exact .comma
  simp only [hcode, List.append_assoc]
  refine Grammar.reads_param_typed _ hname (Syntax.reads_pat_name (by omega) hname ?_)
    ((param.passing.declared type).begins _).dots
      ((param.passing.declared type).isType d (by omega) true hends)
  constructor <;> rfl

theorem exists_isParams {params : List Param}
    (h : ∀ param ∈ params, isName param.name = true ∧ ∃ type : PlainType, param.type = type.code) :
    ∃ trees : List (Syntax.Tree .param), (∀ tree ∈ trees, tree.HasLayout) ∧
      ∀ d, (∀ param ∈ params, Code.sizeOf param.code ≤ d) →
        List.Forall₂ (Grammar.atDepth d).IsParam (params.map (·.code)) trees := by
  obtain ⟨trees, htrees⟩ := exists_forall₂ fun param hparam =>
    exists_isParam (h param hparam).1 (h param hparam).2
  refine ⟨trees, forall_mem_of_forall₂ htrees.flip fun _ _ h => h.1,
    fun d hd => List.forall₂_map_left_iff.2 ?_⟩
  exact ((List.forall₂_and_left _ _).2 ⟨hd, htrees⟩).imp fun param tree h => h.2.2 d h.1

/-! ## Items -/

/-- A method as an item: an impl block of one function with its documentation. -/
theorem code_eq_of_docs {m : Method} {contents : List (List Token)}
    (hdocs : m.docs.flatMap (·.code) = contents.flatMap (op "#" ++ brackets ·)) :
    m.code = word "impl" ++ (m.selfType ++ braces (Syntax.fnContent contents m.name
      (Grammar.paramsCode (m.params.map (·.code))) m.result m.body.code)) := by
  simp only [Method.code, hdocs, signatureCode, callCode, Syntax.fnContent, Syntax.fnCode,
    Grammar.paramsCode, List.append_assoc]

/-- A method whose head is plain is an item if its body is read. -/
theorem exists_isItem {m : Method} (hhead : m.HeadIsPlain)
    (hhash : Syntax.atOp "#" m.body.code = false)
    (hbody : ∃ stmts : List Syntax.Stmt, (∀ s ∈ stmts, s.HasLayout) ∧
      ∀ depth, Code.sizeOf m.body.code + 1 ≤ depth →
        Reads (Grammar.atDepth depth).stmts m.body.code stmts []) :
    ∃ item, Syntax.IsItem (Code.sizeOf m.code) m.code item ∧ item.HasLayout := by
  obtain ⟨selfType, hself⟩ := hhead.self
  obtain ⟨result, hresult⟩ := hhead.result
  obtain ⟨contents, attrs, hdocs, hattrsLayout, hattrs⟩ := Doc.exists_attributes m.docs
  obtain ⟨params, hparamsLayout, hparams⟩ := exists_isParams hhead.params
  obtain ⟨stmts, hstmtsLayout, hstmts⟩ := hbody
  refine ⟨Grammar.implOfMethod selfType.tree
    (Grammar.methodItem attrs m.name params result.tree stmts), ⟨by simp [Method.code, word], ?_⟩,
    Syntax.hasLayout_implOfMethod selfType.hasLayout (Syntax.hasLayout_methodItem m.name
      hattrsLayout hparamsLayout result.hasLayout hstmtsLayout)⟩
  have hcode : ∀ rest, m.code ++ rest = word "impl" ++ (selfType.code ++
      (braces (Syntax.fnContent contents m.name (Grammar.paramsCode (m.params.map (·.code)))
        result.code m.body.code) ++ rest)) := by
    intro rest
    rw [code_eq_of_docs hdocs, hself, hresult, List.append_assoc, List.append_assoc]
  have hsize := congrArg Code.sizeOf (hcode [])
  simp [Syntax.fnContent, Syntax.fnCode] at hsize
  intro d hd rest
  obtain _ | _ | d := d
  · omega
  · omega
  have hparam : ∀ param ∈ m.params, Code.sizeOf param.code ≤ d := by
    intro param hmem
    have hle : Code.sizeOf param.code ≤
        Code.sizeOf (Grammar.paramsCode (m.params.map (·.code))) :=
      Code.sizeOf_separated (List.mem_cons_of_mem _ (List.mem_map_of_mem hmem))
    omega
  have hmethod : Reads (Grammar.atDepth d).readImplItem (Syntax.fnContent contents m.name
      (Grammar.paramsCode (m.params.map (·.code))) result.code m.body.code ++ [])
      (Grammar.methodItem attrs m.name params result.tree stmts) [] :=
    Grammar.reads_readImplItem _ (hattrs _) hhead.name (hparams d hparam)
      (result.isType d (by omega) true .block) hhash (hstmts d (by omega))
  rw [List.append_nil] at hmethod
  rw [hcode]
  exact Grammar.reads_readItem_impl _ <| Grammar.reads_implBlock?_method _
    (selfType.beginsImplType _) (selfType.isType (d + 1) (by omega) true .block)
    (Syntax.reads_innerAttributes_fnContent contents m.name _ result.code m.body.code)
    (by simp [Syntax.fnContent, word]) hmethod

/-! ## Methods that are asked for -/

theorem exists_plain_of_paramOf_eq_ok {args : List Call.Arg} {host : Directive.HostArg}
    {param : Param} (hplain : Syntax.SaysPlainType host.type) (h : paramOf args host = .ok param) :
    isName param.name = true ∧ ∃ type : PlainType, param.type = type.code := by
  refine ⟨isName_of_paramOf_eq_ok h, ?_⟩
  simp only [paramOf, bind_eq_ok_iff] at h
  obtain ⟨name, -, written, hwritten, h⟩ := h
  cases h
  obtain ⟨type, rfl⟩ := Call.exists_plainType_of_typeAs_eq_ok hplain hwritten
  exact ⟨type, rfl⟩

theorem headIsPlain_of_ofDirective_eq_ok {config : Config} {d : Directive} {docs : List Doc}
    {m : Method} (hplain : d.IsPlain) (h : ofDirective config d docs = .ok m) : m.HeadIsPlain := by
  obtain ⟨w⟩ := nonempty_wrapped h
  obtain ⟨self, hself⟩ := Call.exists_plainType_of_typeAs_eq_ok
    (hplain.receiver w.receiver w.receiver?_eq) w.selfType_eq
  obtain ⟨type, htype⟩ := Call.exists_plainType_of_typeAs_eq_ok hplain.result w.result_eq
  refine ⟨⟨self, ?_⟩, ⟨type, ?_⟩, Call.isName_of_identifier_eq_ok w.name_eq, ?_⟩
  · rw [w.selfType_tokens, hself]
  · rw [w.result_tokens, htype]
  · exact forall_mem_of_forall₂ ((List.forall₂_and_left _ _).2
      ⟨hplain.params, w.forall₂_params⟩).flip fun _ _ h => exists_plain_of_paramOf_eq_ok h.1 h.2

/-- What a directive whose types are plain asks for is an item. -/
theorem exists_isItem_of_ofDirective_eq_ok {config : Config} {d : Directive} {docs : List Doc}
    {m : Method} (hplain : d.IsPlain) (hhandle : Syntax.SaysPlainType config.handleType)
    (h : ofDirective config d docs = .ok m) :
    ∃ item, Syntax.IsItem (Code.sizeOf m.code) m.code item ∧ item.HasLayout :=
  exists_isItem (headIsPlain_of_ofDirective_eq_ok hplain h)
    (headIsWhole_of_ofDirective_eq_ok h).body (exists_reads_body hplain hhandle h)

/-- The method that tells values apart is an item if the types of the configuration are plain, and
that of expressions is a path of words. -/
theorem exists_isItem_of_notEqual_eq_ok {config : Config} {m : Method}
    (hdefault : Syntax.SaysPlainType config.defaultType)
    (hbool : Syntax.SaysPlainType config.boolType) (hexpr : Syntax.SaysPlainType config.exprType)
    (hpath : ∀ written, Syntax.typeOf config.exprType = .ok written →
      isPlainPath written.tree = true) (h : notEqual config = .ok m) :
    ∃ item, Syntax.IsItem (Code.sizeOf m.code) m.code item ∧ item.HasLayout := by
  have hbody := (headIsWhole_of_notEqual_eq_ok h).body
  simp only [notEqual, bind_eq_ok_iff] at h
  obtain ⟨selfType, hself, boolType, hboolType, exprType, hexprType, h⟩ := h
  cases h
  obtain ⟨self, rfl⟩ := Call.exists_plainType_of_typeAs_eq_ok hdefault hself
  obtain ⟨result, rfl⟩ := Call.exists_plainType_of_typeAs_eq_ok hbool hboolType
  have hplain := hpath exprType (mapError_eq_ok_iff.1 hexprType)
  obtain ⟨type, rfl⟩ := Call.exists_plainType_of_typeAs_eq_ok hexpr hexprType
  obtain ⟨rooted, first, more, rfl⟩ := exists_path_of_isPlainPath hplain
  have hr : isName "r" = true := by decide
  obtain ⟨stmts, hlayout, hstmts⟩ := exists_reads_distinct rooted first more hr
  refine exists_isItem ⟨⟨self, rfl⟩, ⟨result, rfl⟩, show isName "ne" = true by decide, ?_⟩ hbody
    ⟨stmts, hlayout, fun depth hdepth => hstmts depth (Nat.le_of_succ_le hdepth)⟩
  exact List.forall_mem_singleton.2 ⟨hr, self, rfl⟩

end Method

end ForeignWrap
