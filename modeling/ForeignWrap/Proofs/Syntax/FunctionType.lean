import ForeignWrap.Proofs.Syntax.Type

/-!
# Function types as code

A function type is read from its code: what stands before `fn`, its arguments, none of which has a
name, and its result.

## Main definitions

* `ForeignWrap.Syntax.Grammar.IsTypeArg`: code that is read as an argument of a function type.
* `ForeignWrap.Syntax.Grammar.FunctionMarks`: what stands before `fn`.
* `ForeignWrap.Syntax.Grammar.reads_readType_function`: a function type is read.
-/

namespace ForeignWrap.Syntax.Grammar

open Code (Token)
open Syntax.Parser

variable (g : Grammar) {rest : List Token}

/-! ## Arguments -/

/-- A piece of code that is read as a type without a name where an argument of a function type
stands. -/
structure IsTypeArg (piece : List Token) (type : Ty) : Prop where
  ne_nil : piece ≠ []
  hash : ∀ rest, atOp "#" (piece ++ rest) = false
  dots : ∀ rest, atOp "..." (piece ++ rest) = false
  mutable : ∀ rest, atWord "mut" (piece ++ rest) = false
  name : ∀ first rest, AtListEnd rest → atTypeArgName first (piece ++ rest) = false
  reads : ∀ rest, AtListEnd rest → Reads (g.type true) (piece ++ rest) type rest

/-- A type without a name as an argument of a function type. -/
def unnamedArg (type : Ty) : Tree .typeArg :=
  .namedTypeArg .nil none type

theorem IsTypeArg.reads_typeArg {piece : List Token} {type : Ty} (h : g.IsTypeArg piece type)
    (first : Bool) (hrest : AtListEnd rest) :
    Reads (g.typeArg first) (piece ++ rest) (unnamedArg type) rest := by
  have hmutable : atMutableSelf (piece ++ rest) = false := by
    simp only [atMutableSelf, h.mutable, Bool.false_and]
  refine (reads_outerAttributes_nil g (h.hash rest)).bind ?_
  refine .of_opens [] (fun taken leftover => ?_) ((h.reads rest hrest).map unnamedArg)
  change (if (first && atMutableSelf (piece ++ rest)) = true then _ else
    if atTypeArgName first (piece ++ rest) = true then _ else _ : Parser (Tree .typeArg))
    ⟨piece ++ rest, taken, leftover⟩ = _
  rw [hmutable, h.name first rest hrest]
  simp only [Bool.and_false, Bool.false_eq_true, if_false]
  refine (bind_eq_of_eq_ok rfl).trans ?_
  rw [if_pos (by simp)]
  refine (bind_eq_of_eq_ok (op?_eq_ok_of_atOp (h.dots rest))).trans ?_
  refine (bind_eq_of_eq_ok rfl).trans ?_
  simp only [hmutable, Bool.and_false, Bool.false_eq_true, if_false]
  rw [← bind_pure_comp]
  rfl

theorem reads_typeArgsUpTo_succ {piece tokens : List Token} {type : Ty}
    {types : List Ty} {bound : Nat} (first : Bool) (hpiece : g.IsTypeArg piece type)
    (hrest : rest = [] ∧ tokens = [] ∨ rest = Code.op "," ++ tokens)
    (hmore : Reads (g.typeArgsUpTo bound false) tokens (types.map unnamedArg) []) :
    Reads (g.typeArgsUpTo (bound + 1) first) (piece ++ rest) ((type :: types).map unnamedArg)
      [] := by
  have hend : AtListEnd rest := by
    obtain ⟨rfl, -⟩ | rfl := hrest
    · exact .inl rfl
    · exact .inr ⟨_, _, rfl⟩
  refine (reads_atEnd _).bind ?_
  rw [if_neg (by simp [hpiece.ne_nil])]
  refine (hpiece.reads_typeArg g first hend).bind ((reads_atEnd _).bind ?_)
  obtain ⟨rfl, rfl⟩ | rfl := hrest
  · exact hmore.bind (reads_pure _ _)
  · exact (reads_op (by decide) _).bind (hmore.bind (reads_pure _ _))

/-- The arguments of a function type are read one by one. -/
theorem reads_typeArgsUpTo {pieces : List (List Token)} {types : List Ty} {bound : Nat}
    (first : Bool) (h : List.Forall₂ g.IsTypeArg pieces types) (hbound : pieces.length ≤ bound) :
    Reads (g.typeArgsUpTo bound first) (Code.separated (Code.op ",") pieces)
      (types.map unnamedArg) [] := by
  induction h generalizing first bound with
  | nil =>
    cases bound with
    | zero => exact reads_pure _ _
    | succ bound => exact (reads_atEnd _).bind (reads_pure _ _)
  | @cons piece type pieces types hpiece hpieces ih =>
    obtain ⟨bound, rfl⟩ := Nat.exists_eq_add_one.2 (Nat.lt_of_lt_of_le (Nat.succ_pos _) hbound)
    have hmore := ih false (Nat.le_of_succ_le_succ hbound)
    cases hpieces with
    | nil =>
      have hread := reads_typeArgsUpTo_succ g first hpiece (.inl ⟨rfl, rfl⟩) hmore
      rwa [List.append_nil] at hread
    | cons _ _ =>
      rw [Code.separated, List.append_assoc]
      exact reads_typeArgsUpTo_succ g first hpiece (.inr rfl) hmore

/-- The arguments of a function type stand in parentheses. -/
theorem reads_typeArgs {pieces : List (List Token)} {types : List Ty}
    (h : List.Forall₂ g.IsTypeArg pieces types) :
    Reads g.typeArgs (Code.parens (Code.separated (Code.op ",") pieces) ++ rest)
      (types.map unnamedArg) rest := by
  refine reads_inside (reads_ahead_bind (reads_typeArgsUpTo g true h ?_))
  cases pieces with
  | nil => exact Nat.zero_le _
  | cons first pieces => exact Nat.succ_le_succ (Code.length_le_length_separated first pieces)

/-! ## Marks -/

/-- A string literal. -/
abbrev StringText : Type :=
  { text : String // atString [.literal text] = true }

/-- What stands before `fn` in a function type. -/
structure FunctionMarks where
  isUnsafe : Bool
  /-- The calling convention, with or without a name for it. -/
  abi : Option (Option StringText)

/-- A calling convention as code. -/
def abiCode (abi : Option (Option StringText)) : List Token :=
  abi.elim [] fun name => Code.word "extern" ++ name.elim [] fun text => [.literal text.1]

/-- The marks of a function type as code. -/
def FunctionMarks.code (marks : FunctionMarks) : List Token :=
  (if marks.isUnsafe then Code.word "unsafe" else []) ++ abiCode marks.abi

/-- The calling convention of a function type. -/
def FunctionMarks.convention (marks : FunctionMarks) : Option Abi :=
  marks.abi.map fun name => ⟨name.map (·.1)⟩

theorem reads_abi? (abi : Option (Option StringText)) (tokens : List Token) :
    Reads abi? (abiCode abi ++ (Code.word "fn" ++ tokens))
      (abi.map fun name => ⟨name.map (·.1)⟩) (Code.word "fn" ++ tokens) := by
  cases abi with
  | none => exact (reads_keyword?_false rfl).bind (reads_pure _ _)
  | some name =>
    refine (reads_keyword?_true _ _).bind ?_
    cases name with
    | none =>
      have hnone : Reads string? (Code.word "fn" ++ tokens) none (Code.word "fn" ++ tokens) :=
        reads_ahead_bind (reads_pure _ _)
      exact hnone.bind (reads_pure _ _)
    | some text =>
      have hstring : atString (.literal text.1 :: (Code.word "fn" ++ tokens)) = true := text.2
      have hsome : Reads string? (.literal text.1 :: (Code.word "fn" ++ tokens)) (some text.1)
          (Code.word "fn" ++ tokens) := by
        refine reads_ahead_bind ?_
        rw [if_pos hstring]
        exact (reads_literal _ _).bind (reads_pure _ _)
      exact hsome.bind (reads_pure _ _)

/-! ## Function types -/

/-- A function type as code. -/
def functionCode (marks : FunctionMarks) (pieces : List (List Token)) (output : List Token) :
    List Token :=
  marks.code ++ (Code.word "fn" ++ (Code.parens (Code.separated (Code.op ",") pieces) ++ output))

/-- A function type. -/
def functionOf (marks : FunctionMarks) (types : List Ty) (output : Option Ty) : Ty :=
  .functionType .absent marks.isUnsafe marks.convention (.ofList (types.map unnamedArg))
    (.ofOption output)

theorem reads_functionType {marks : FunctionMarks} {pieces : List (List Token)} {types : List Ty}
    {output : List Token} {outputType : Option Ty}
    (hargs : List.Forall₂ g.IsTypeArg pieces types)
    (houtput : Reads (g.arrowType? false) (output ++ rest) outputType rest) :
    Reads (g.functionType .absent) (functionCode marks pieces output ++ rest)
      (functionOf marks types outputType) rest := by
  have hcode : functionCode marks pieces output ++ rest =
      (if marks.isUnsafe then Code.word "unsafe" else []) ++ (abiCode marks.abi ++
        (Code.word "fn" ++ (Code.parens (Code.separated (Code.op ",") pieces) ++
          (output ++ rest)))) := by
    simp only [functionCode, FunctionMarks.code, List.append_assoc]
  have hfor : atWord "for" (functionCode marks pieces output ++ rest) = false := by
    obtain ⟨_ | _, _ | _⟩ := marks <;> rfl
  have hmark : ∀ tokens, Reads (keyword? "unsafe")
      ((if marks.isUnsafe then Code.word "unsafe" else []) ++ (abiCode marks.abi ++
        (Code.word "fn" ++ tokens))) marks.isUnsafe
      (abiCode marks.abi ++ (Code.word "fn" ++ tokens)) := by
    intro tokens
    obtain ⟨_ | _, abi⟩ := marks
    · exact reads_keyword?_false (by cases abi <;> rfl)
    · exact reads_keyword?_true _ _
  refine (reads_forParams?_absent g hfor).bind ?_
  rw [hcode]
  refine (hmark _).bind ((reads_abi? marks.abi _).bind ((reads_keyword _ _).bind ?_))
  exact (reads_typeArgs g hargs).bind (houtput.bind (reads_pure _ _))

/-- A function type, whatever stands before `fn`. -/
theorem reads_readType_function {plus : Bool} {marks : FunctionMarks} {pieces : List (List Token)}
    {types : List Ty} {output : List Token} {outputType : Option Ty}
    (hargs : List.Forall₂ g.IsTypeArg pieces types)
    (houtput : Reads (g.arrowType? false) (output ++ rest) outputType rest) :
    Reads (g.readType plus) (functionCode marks pieces output ++ rest)
      (functionOf marks types outputType) rest := by
  have hread : Reads (g.functionType .absent) (functionCode marks pieces output ++ rest)
      (functionOf marks types outputType) rest := reads_functionType g hargs houtput
  obtain ⟨_ | _, _ | _ | _⟩ := marks <;> exact .of_opens [] (fun _ _ => by exact rfl) hread

end ForeignWrap.Syntax.Grammar
