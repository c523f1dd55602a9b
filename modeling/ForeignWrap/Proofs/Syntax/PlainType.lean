import ForeignWrap.Proofs.Layout.Scribe
import ForeignWrap.Proofs.Syntax.FunctionType

/-!
# Plain types as code

Most types are plain: paths that may have types for their arguments, references and pointers, slices
and arrays, tuples, and types of functions. Wherever a type may stand, a plain type is read from its
code, and nothing of what follows it is taken for a part of it.

## Main definitions

* `ForeignWrap.Syntax.PlainType`: a plain type, as it is written.
* `ForeignWrap.Syntax.PlainType.Begins`: where a plain type begins.

## Main statements

* `ForeignWrap.Syntax.PlainType.isType`: a plain type is read from its code.
* `ForeignWrap.Syntax.PlainType.hasLayout`: what it is read as can be written.
-/

namespace ForeignWrap.Syntax

open Code (Delimiter Token)
open Syntax.Parser
open Grammar (FunctionMarks wordPath wordPathCode)

/-- A word that can be a part of a path. -/
abbrev PathWord : Type :=
  { text : String // IsPathWord text }

/-- A word that is a name. -/
abbrev NameWord : Type :=
  { text : String // isName text = true }

/-- A literal of the language, or a path of words that names a value. -/
inductive PlainValue where
  | literal (text : String)
  | path (rooted : Bool) (first : PathWord) (more : List PathWord)

/-- A type without bounds: a path of words, the last of which may have types for its arguments, or
what is put together from such types. -/
inductive PlainType where
  | path (rooted : Bool) (first : PathWord) (more : List PathWord)
  | applied (rooted : Bool) (before : List PathWord) (name : NameWord) (args : List PlainType)
  | reference (lifetime : Option String) (mutable : Bool) (type : PlainType)
  | pointer (mutable : Bool) (type : PlainType)
  | slice (type : PlainType)
  | array (type : PlainType) (length : PlainValue)
  | unit
  /-- A tuple, with a comma after its first type. -/
  | tuple (first : PlainType) (more : List PlainType)
  | function (marks : FunctionMarks) (inputs : List PlainType)
  | functionTo (marks : FunctionMarks) (inputs : List PlainType) (output : PlainType)

/-! ## Parts of types that have a layout -/

theorem hasLayout_wordPath (rooted : Bool) (first : String) (more : List String) :
    (wordPath rooted first more).HasLayout := by
  refine ⟨trivial, Tree.hasLayout_ofList fun part hpart => ?_⟩
  obtain ⟨text, -, rfl⟩ := List.mem_map.1 hpart
  trivial

theorem hasLayout_angledPath {rooted : Bool} {before : List String} {name : String}
    {types : List Ty} (h : ∀ type ∈ types, type.HasLayout) :
    (Grammar.angledPath rooted before name (types.map .typeArg)).HasLayout := by
  refine ⟨trivial, Tree.hasLayout_ofList (List.forall_mem_append.2 ⟨?_, ?_⟩)⟩
  · exact List.forall_mem_map.2 fun _ _ => trivial
  · exact List.forall_mem_singleton.2 (Tree.hasLayout_ofList (List.forall_mem_map.2 h))

theorem hasLayout_functionOf {marks : FunctionMarks} {types : List Ty} {output : Option Ty}
    (htypes : ∀ type ∈ types, type.HasLayout) (houtput : (Tree.ofOption output).HasLayout) :
    (Grammar.functionOf marks types output).HasLayout :=
  ⟨trivial, Tree.hasLayout_ofList (List.forall_mem_map.2 fun type hmem =>
    ⟨trivial, htypes type hmem⟩), houtput⟩

/-! ## Values -/

namespace PlainValue

/-- A plain value as code. -/
def code : PlainValue → List Token
  | literal text => [.literal text]
  | path rooted first more => wordPathCode rooted first.1 (more.map (·.1))

/-- What a plain value is read as. -/
def tree : PlainValue → Expr
  | literal text => .literal text
  | path rooted first more => Grammar.wordPathExpr rooted first.1 (more.map (·.1))

end PlainValue

theorem forall_mem_words (words : List PathWord) : ∀ text ∈ words.map (·.1), IsPathWord text :=
  List.forall_mem_map.2 fun word _ => word.2

/-- A plain value is an operand. -/
theorem PlainValue.isOperand (value : PlainValue) : IsOperand 0 value.code value.tree := by
  cases value with
  | literal text => exact isOperand_literal text
  | path rooted first more =>
    exact isOperand_wordPath rooted first.2 (forall_mem_words more)

theorem PlainValue.isRaw_tree (value : PlainValue) : value.tree.isRaw = false := by
  cases value <;> rfl

theorem PlainValue.code_ne_nil (value : PlainValue) : value.code ≠ [] := by
  cases value <;> simp [code, wordPathCode, Code.word]

theorem PlainValue.one_le_sizeOf_code (value : PlainValue) : 1 ≤ Code.sizeOf value.code := by
  cases value with
  | literal => exact Nat.le_refl 1
  | path =>
    simp [code, wordPathCode]
    omega

theorem PlainValue.hasLayout (value : PlainValue) : value.tree.HasLayout := by
  cases value with
  | literal => trivial
  | path rooted first more => exact hasLayout_wordPath rooted first.1 (more.map (·.1))

namespace PlainType

mutual

/-- A plain type as code. -/
def code : PlainType → List Token
  | path rooted first more => wordPathCode rooted first.1 (more.map (·.1))
  | applied rooted before name args =>
    Grammar.angledPathCode rooted (before.map (·.1)) name.1 (codes args)
  | reference lifetime mutable type =>
    Code.op "&" ++ (Grammar.lifetimeCode lifetime ++ (Grammar.mutCode mutable ++ type.code))
  | pointer mutable type =>
    Code.op "*" ++ (Code.word (if mutable then "mut" else "const") ++ type.code)
  | slice type => Code.brackets type.code
  | array type length => Code.brackets (type.code ++ (Code.op ";" ++ length.code))
  | unit => Code.parens []
  | tuple first more =>
    Code.parens (first.code ++ (Code.op "," ++ Code.separated (Code.op ",") (codes more)))
  | function marks inputs => Grammar.functionCode marks (codes inputs) []
  | functionTo marks inputs output =>
    Grammar.functionCode marks (codes inputs) (Code.op "->" ++ output.code)

/-- Plain types as code. -/
def codes : List PlainType → List (List Token)
  | [] => []
  | type :: rest => type.code :: codes rest

end

mutual

/-- What a plain type is read as. -/
def tree : PlainType → Ty
  | path rooted first more => .pathType (wordPath rooted first.1 (more.map (·.1)))
  | applied rooted before name args =>
    .pathType (Grammar.angledPath rooted (before.map (·.1)) name.1 ((trees args).map .typeArg))
  | reference lifetime mutable type => .referenceType lifetime mutable type.tree
  | pointer mutable type => .pointerType mutable type.tree
  | slice type => .sliceType type.tree
  | array type length => .arrayType type.tree length.tree
  | unit => .tupleType .nil
  | tuple first more => .tupleType (.ofList (first.tree :: trees more))
  | function marks inputs => Grammar.functionOf marks (trees inputs) none
  | functionTo marks inputs output => Grammar.functionOf marks (trees inputs) (some output.tree)

/-- What plain types are read as. -/
def trees : List PlainType → List Ty
  | [] => []
  | type :: rest => type.tree :: trees rest

end

/-! ## Where a plain type begins -/

/-- Where a plain type begins. -/
structure Begins (tokens : List Token) : Prop where
  lifetime : atLifetime tokens = false
  mutable : atWord "mut" tokens = false
  const : atWord "const" tokens = false
  literal : atLiteral tokens = false
  block : atGroup .brace tokens = false
  angle : atOp ">" tokens = false
  hash : atOp "#" tokens = false
  dots : atOp "..." tokens = false
  question : atOp "?" tokens = false
  bang : atOp "!" tokens = false
  params : atGenericParams tokens = false

theorem begins_word {first : String} {rest : List Token} (h : IsPathWord first) :
    Begins (.word first :: rest) where
  lifetime := rfl
  mutable := atWord_word_of_isPathWord h (by decide) (by decide)
  const := atWord_word_of_isPathWord h (by decide) (by decide)
  literal := by
    have htrue : atWord "true" (.word first :: rest) = false :=
      atWord_word_of_isPathWord h (by decide) (by decide)
    have hfalse : atWord "false" (.word first :: rest) = false :=
      atWord_word_of_isPathWord h (by decide) (by decide)
    simp only [atWord] at htrue hfalse
    simp only [atLiteral, htrue, hfalse, Bool.or_self]
  block := rfl
  angle := rfl
  hash := rfl
  dots := rfl
  question := rfl
  bang := rfl
  params := rfl

theorem begins_function (marks : FunctionMarks) (pieces : List (List Token))
    (output rest : List Token) :
    Begins (Grammar.functionCode marks pieces output ++ rest) := by
  obtain ⟨_ | _, _ | _ | _⟩ := marks <;> constructor <;> rfl

theorem begins (type : PlainType) (rest : List Token) : Begins (type.code ++ rest) := by
  cases type with
  | path rooted first more =>
    cases rooted with
    | true => constructor <;> rfl
    | false => exact begins_word first.2
  | applied rooted before name args =>
    simp only [code, Grammar.angledPathCode, List.append_assoc]
    cases rooted with
    | true => constructor <;> rfl
    | false =>
      cases before with
      | nil => exact begins_word (.inl name.2)
      | cons first _ => exact begins_word first.2
  | reference | pointer | slice | array | unit | tuple => constructor <;> rfl
  | function | functionTo => exact begins_function _ _ _ _

theorem code_ne_nil (type : PlainType) : type.code ≠ [] := by
  intro hnil
  cases type with
  | path | applied | reference | pointer => simp [code, wordPathCode, Grammar.angledPathCode,
      Code.word, Code.op, Code.opSigns] at hnil
  | slice | array | unit | tuple => simp [code, Code.brackets, Code.parens] at hnil
  | function | functionTo => simp [code, Grammar.functionCode, Code.word] at hnil

/-- No plain type begins with the name of an argument. -/
theorem atTypeArgName_eq_false (type : PlainType) (first : Bool) {rest : List Token}
    (hrest : AtListEnd rest) : Grammar.atTypeArgName first (type.code ++ rest) = false := by
  have hword : ∀ (text : String) (tokens : List Token), atColon tokens = false →
      Grammar.atTypeArgName first (.word text :: tokens) = false := by
    intro text tokens hcolon
    have hskip : skip (.word text :: tokens) = tokens := rfl
    rw [Grammar.atTypeArgName, hskip, hcolon, Bool.and_false]
  cases type with
  | path rooted word more =>
    cases rooted with
    | true => cases first <;> rfl
    | false =>
      refine hword word.1 (Grammar.partsCode (more.map (·.1)) ++ rest) ?_
      cases more with
      | nil => obtain rfl | ⟨_, _, rfl⟩ := hrest <;> rfl
      | cons => rfl
  | applied rooted before name args =>
    simp only [code, Grammar.angledPathCode, List.append_assoc]
    cases rooted with
    | true => cases first <;> rfl
    | false => cases before <;> exact hword _ _ rfl
  | reference | pointer | slice | array | unit | tuple => cases first <;> rfl
  | function marks | functionTo marks =>
    obtain ⟨_ | _, _ | _ | _⟩ := marks <;> exact hword _ _ rfl

/-! ## Reading -/

/-- A path is read as a type. -/
theorem isType_path (rooted : Bool) (first : PathWord) (more : List PathWord) :
    IsType 1 (path rooted first more).code (path rooted first more).tree := by
  intro d hd plus rest hrest
  obtain _ | d := d
  · cases hd
  have hqualified : Reads ((Grammar.atDepth d).qualifiedPath false)
      ((path rooted first more).code ++ rest) (wordPath rooted first.1 (more.map (·.1))) rest :=
    Grammar.reads_qualifiedPath _ first.2 (forall_mem_words more) hrest.endsPath
  have hpath := Grammar.reads_pathLikeType (Grammar.atDepth d) plus hqualified hrest
  cases rooted with
  | true => exact Grammar.reads_readType_rooted _ hpath
  | false =>
    refine Grammar.reads_readType_word _ first.2 ?_ hpath
    cases more with
    | nil => exact hrest.atOp_number
    | cons _ _ => rfl

/-- Plain types that are read one by one. -/
theorem forall₂_codes {relation : List Token → Ty → Prop} {types : List PlainType}
    (h : ∀ type ∈ types, relation type.code type.tree) :
    List.Forall₂ relation (codes types) (trees types) := by
  induction types with
  | nil => exact .nil
  | cons type types ih =>
    obtain ⟨htype, htypes⟩ := List.forall_mem_cons.1 h
    exact .cons htype (ih htypes)

/-- A path with arguments is read as a type if they are. -/
theorem isType_applied {depth : Nat} {rooted : Bool} {before : List PathWord} {name : NameWord}
    {args : List PlainType} (hargs : ∀ type ∈ args, IsType depth type.code type.tree) :
    IsType (depth + 1) (applied rooted before name args).code
      (applied rooted before name args).tree := by
  intro d hd plus rest hrest
  obtain _ | d := d
  · cases hd
  have hd := Nat.le_of_succ_le_succ hd
  have heach : List.Forall₂ (Grammar.ReadsAngled (Grammar.atDepth d).genericArg) (codes args)
      ((trees args).map .typeArg) := by
    refine List.forall₂_map_right_iff.2 (forall₂_codes fun type hmem => ?_)
    refine ⟨fun rest => (type.begins rest).angle, type.code_ne_nil, fun rest hrest => ?_⟩
    have hbegins := type.begins rest
    have hends : EndsType rest := by cases hrest <;> constructor
    refine Grammar.reads_genericArg _ hbegins.lifetime hbegins.literal hbegins.block
      (hargs type hmem d hd true hends) ?_ ?_ <;> cases hrest <;> rfl
  have hpath : Reads ((Grammar.atDepth d).path false)
      ((applied rooted before name args).code ++ rest) _ rest :=
    Grammar.reads_angledPath _ (forall_mem_words before) name.2 hrest.atOp_colons
      (Grammar.reads_angled heach)
  have hangle : atOp "<" ((applied rooted before name args).code ++ rest) = false := by
    cases rooted with
    | true => rfl
    | false => cases before <;> rfl
  have hread := Grammar.reads_pathLikeType (Grammar.atDepth d) plus
    (Grammar.reads_qualifiedPath_of_path _ hangle hpath) hrest
  cases rooted with
  | true => exact Grammar.reads_readType_rooted _ hread
  | false =>
    cases before with
    | nil => exact Grammar.reads_readType_word _ (.inl name.2) rfl hread
    | cons first more =>
      exact Grammar.reads_readType_word _ first.2 rfl hread

variable {depth : Nat} {type : PlainType}

/-- A reference to what is read as a type is. -/
theorem isType_reference (lifetime : Option String) (mutable : Bool)
    (h : IsType depth type.code type.tree) : IsType (depth + 1)
      (reference lifetime mutable type).code (reference lifetime mutable type).tree := by
  intro d hd plus rest hrest
  obtain _ | d := d
  · cases hd
  have hbegins := type.begins rest
  have hread := h d (Nat.le_of_succ_le_succ hd) false hrest
  simp only [code, List.append_assoc]
  exact Grammar.reads_readType_reference _ hbegins.lifetime hbegins.mutable hread

/-- A pointer to what is read as a type is. -/
theorem isType_pointer (mutable : Bool) (h : IsType depth type.code type.tree) :
    IsType (depth + 1) (pointer mutable type).code (pointer mutable type).tree := by
  intro d hd plus rest hrest
  obtain _ | d := d
  · cases hd
  simp only [code, List.append_assoc]
  exact Grammar.reads_readType_pointer _ (h d (Nat.le_of_succ_le_succ hd) false hrest)

/-- A slice of what is read as a type is. -/
theorem isType_slice (h : IsType depth type.code type.tree) :
    IsType (depth + 1) (slice type).code (slice type).tree := by
  intro d hd plus rest _
  obtain _ | d := d
  · cases hd
  have hread := h d (Nat.le_of_succ_le_succ hd) true .none
  rw [List.append_nil] at hread
  exact Grammar.reads_readType_slice _ hread

/-- An array of what is read as a type is. -/
theorem isType_array (length : PlainValue) (h : IsType depth type.code type.tree) :
    IsType (depth + 2) (array type length).code (array type length).tree := by
  intro d hd plus rest _
  obtain _ | _ | d := d
  · cases hd
  · cases Nat.le_of_succ_le_succ hd
  have hsemicolon : EndsType (Code.op ";" ++ length.code) := .semicolon
  have hread := h (d + 1) (by omega) true hsemicolon
  have hlength := length.isOperand.isExpr length.isRaw_tree (d + 1) (Nat.le_add_left 1 d)
    (.none : EndsExpr true [])
  rw [List.append_nil] at hlength
  exact Grammar.reads_readType_array _ hread hlength

theorem isType_unit : IsType 1 unit.code unit.tree := by
  intro d hd plus rest _
  obtain _ | d := d
  · cases hd
  exact Grammar.reads_readType_parens _ (Grammar.reads_enclosed_nil _)

/-- A tuple of what is read as types is. -/
theorem isType_tuple {first : PlainType} {more : List PlainType}
    (hfirst : IsType depth first.code first.tree)
    (hmore : ∀ type ∈ more, IsType depth type.code type.tree) :
    IsType (depth + 1) (tuple first more).code (tuple first more).tree := by
  intro d hd plus rest _
  obtain _ | d := d
  · cases hd
  have hd := Nat.le_of_succ_le_succ hd
  refine Grammar.reads_readType_parens _ (Grammar.reads_enclosed _ first.code_ne_nil
    (fun _ => (first.begins _).lifetime) (fun _ => (first.begins _).question)
    (fun tokens => hfirst d hd true .comma) (forall₂_codes fun type hmem => ?_))
  refine ⟨type.code_ne_nil, fun rest hrest => hmore type hmem d hd true ?_⟩
  have hends : EndsExpr true rest := .of_atListEnd hrest
  exact .of_endsExpr hends

/-- The arguments of a function type are read if they are as types. -/
theorem forall₂_isTypeArg {d : Nat} {inputs : List PlainType} (hd : depth ≤ d)
    (h : ∀ type ∈ inputs, IsType depth type.code type.tree) :
    List.Forall₂ (Grammar.atDepth d).IsTypeArg (codes inputs) (trees inputs) :=
  forall₂_codes fun type hmem =>
    { ne_nil := type.code_ne_nil
      hash := fun _ => (type.begins _).hash
      dots := fun _ => (type.begins _).dots
      mutable := fun _ => (type.begins _).mutable
      name := fun first _ hrest => type.atTypeArgName_eq_false first hrest
      reads := fun rest hrest =>
        have hends : EndsExpr true rest := .of_atListEnd hrest
        h type hmem d hd true (.of_endsExpr hends) }

/-- The type of a function without a result is read if those of its arguments are. -/
theorem isType_function (marks : FunctionMarks) {inputs : List PlainType}
    (h : ∀ type ∈ inputs, IsType depth type.code type.tree) :
    IsType (depth + 1) (function marks inputs).code (function marks inputs).tree := by
  intro d hd plus rest hrest
  obtain _ | d := d
  · cases hd
  have hnone : Reads ((Grammar.atDepth d).arrowType? false) ([] ++ rest) none rest :=
    (reads_op?_false (by cases hrest <;> rfl)).bind (reads_pure _ _)
  exact Grammar.reads_readType_function _ (forall₂_isTypeArg (Nat.le_of_succ_le_succ hd) h) hnone

/-- The type of a function is read if those of its arguments and its result are. -/
theorem isType_functionTo (marks : FunctionMarks) {inputs : List PlainType} {output : PlainType}
    (h : ∀ type ∈ inputs, IsType depth type.code type.tree)
    (houtput : IsType depth output.code output.tree) :
    IsType (depth + 1) (functionTo marks inputs output).code
      (functionTo marks inputs output).tree := by
  intro d hd plus rest hrest
  obtain _ | d := d
  · cases hd
  have hd := Nat.le_of_succ_le_succ hd
  have harrow : Reads ((Grammar.atDepth d).arrowType? false)
      (Code.op "->" ++ output.code ++ rest) (some output.tree) rest := by
    rw [List.append_assoc]
    exact (reads_op?_true (afterOp?_op (by decide) _)).bind
      ((houtput d hd false hrest).bind (reads_pure _ _))
  exact Grammar.reads_readType_function _ (forall₂_isTypeArg hd h) harrow

theorem sizeOf_functionCode (marks : FunctionMarks) (pieces : List (List Token))
    (output : List Token) :
    Code.sizeOf (Code.separated (Code.op ",") pieces) + Code.sizeOf output + 1 ≤
      Code.sizeOf (Grammar.functionCode marks pieces output) := by
  simp [Grammar.functionCode]
  omega

mutual

/-- A plain type is read from its code. -/
theorem isType : (type : PlainType) → IsType (Code.sizeOf type.code) type.code type.tree
  | path rooted first more => (isType_path rooted first more).mono (by
      simp [code, wordPathCode]
      omega)
  | applied rooted before name args => (isType_applied (isType_of_mem args)).mono (by
      simp [code, Grammar.angledPathCode, Grammar.angledCode]
      omega)
  | reference lifetime mutable type => (isType_reference lifetime mutable type.isType).mono (by
      simp [code, Code.op, Code.opSigns]
      omega)
  | pointer mutable type => (isType_pointer mutable type.isType).mono (by
      simp [code, Code.op, Code.opSigns]
      omega)
  | slice type => (isType_slice type.isType).mono (by
      simp [code])
  | array type length => (isType_array length type.isType).mono (by
      simp [code, Code.op, Code.opSigns])
  | unit => isType_unit.mono (by simp [code])
  | tuple first more => by
    have hmore : ∀ type ∈ more, IsType _ type.code type.tree := isType_of_mem more
    refine (isType_tuple (first.isType.mono (Nat.le_add_right _ _))
      fun type hmem => (hmore type hmem).mono (Nat.le_add_left _ _)).mono ?_
    simp [code]
  | function marks inputs =>
    (isType_function marks (isType_of_mem inputs)).mono
      (sizeOf_functionCode marks (codes inputs) [])
  | functionTo marks inputs output => by
    have hinputs : ∀ type ∈ inputs, IsType _ type.code type.tree := isType_of_mem inputs
    refine (isType_functionTo marks (fun type hmem => (hinputs type hmem).mono
      (Nat.le_add_right _ _)) (output.isType.mono (Nat.le_add_left _ _))).mono ?_
    have hle := sizeOf_functionCode marks (codes inputs) (Code.op "->" ++ output.code)
    rw [Code.sizeOf_append] at hle
    exact Nat.le_trans (by omega) hle

theorem isType_of_mem : (types : List PlainType) → ∀ type ∈ types,
    IsType (Code.sizeOf (Code.separated (Code.op ",") (codes types))) type.code type.tree
  | [], _, h => absurd h List.not_mem_nil
  | first :: rest, type, h => by
    obtain h | h := List.mem_cons.1 h
    · rw [h]
      exact first.isType.mono (Code.sizeOf_separated (by simp [codes]))
    · refine (isType_of_mem rest type h).mono ?_
      rw [codes]
      cases hcodes : codes rest with
      | nil => simp [Code.separated]
      | cons next more =>
        rw [Code.separated]
        simp
        omega

end

mutual

/-- What a plain type is read as has a layout. -/
theorem hasLayout : (type : PlainType) → type.tree.HasLayout
  | path rooted first more => hasLayout_wordPath rooted first.1 (more.map Subtype.val)
  | applied _ _ _ args => hasLayout_angledPath (hasLayout_of_mem args)
  | reference _ _ type | pointer _ type | slice type => type.hasLayout
  | array type length => ⟨type.hasLayout, length.hasLayout⟩
  | unit => trivial
  | tuple first more =>
    ⟨first.hasLayout, Tree.hasLayout_ofList (hasLayout_of_mem more)⟩
  | function _ inputs => hasLayout_functionOf (hasLayout_of_mem inputs) trivial
  | functionTo _ inputs output => hasLayout_functionOf (hasLayout_of_mem inputs) output.hasLayout

theorem hasLayout_of_mem : (types : List PlainType) → ∀ type ∈ trees types, type.HasLayout
  | [], _, h => absurd h List.not_mem_nil
  | first :: rest, type, h => by
    obtain rfl | h := List.mem_cons.1 h
    · exact first.hasLayout
    · exact hasLayout_of_mem rest type h

end

end PlainType

end ForeignWrap.Syntax
