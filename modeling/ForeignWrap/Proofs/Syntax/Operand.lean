import ForeignWrap.Method.Code
import ForeignWrap.Proofs.Syntax.Expression

/-!
# Calls as code

Code that the methods are put together from is read as what it says, at any depth that is deep
enough: paths, calls of functions and methods, casts and references.

## Main definitions

* `ForeignWrap.Syntax.EndsExpr`: where an expression is at its end.
* `ForeignWrap.Syntax.IsOperand`: code of an operand, after which calls may follow.
* `ForeignWrap.Syntax.IsExpr`: code of an expression.
-/

namespace ForeignWrap.Syntax

open Code (Delimiter Token)
open Syntax.Parser
open Grammar (EndsPathExpr EndsTrailers EndsOperators BeginsBare wordPathCode wordPathExpr
  partsCode)

/-- Where an expression is at its end: at the end of the tokens, before a comma or a semicolon, and
before the block of a loop if no fields of a struct may come there. -/
inductive EndsExpr (struct : Bool) : List Token → Prop where
  | none : EndsExpr struct []
  | comma {joint : Bool} {more : List Token} : EndsExpr struct (.sign ',' joint :: more)
  | semicolon {joint : Bool} {more : List Token} : EndsExpr struct (.sign ';' joint :: more)
  | block {content more : List Token} : struct = false →
      EndsExpr struct (.group .brace content :: more)

namespace EndsExpr

variable {struct : Bool} {rest : List Token}

theorem of_atListEnd (h : AtListEnd rest) : EndsExpr struct rest := by
  obtain rfl | ⟨joint, more, rfl⟩ := h
  · exact .none
  · exact .comma

theorem endsPathExpr (h : EndsExpr struct rest) : EndsPathExpr struct rest := by
  cases h with
  | none | comma | semicolon => constructor <;> intros <;> rfl
  | block hstruct => constructor <;> first | rfl | simp [hstruct]

theorem endsTrailers (h : EndsExpr struct rest) : EndsTrailers rest := by
  cases h <;> constructor <;> rfl

theorem endsOperators (h : EndsExpr struct rest) : EndsOperators rest := by
  cases h <;> constructor <;> rfl

end EndsExpr

/-! ## Operands -/

/-- To the depth `depth` and deeper, the code is an operand that is read as `e`. What follows it may
be a part of the operand. -/
def IsOperand (depth : Nat) (code : List Token) (e : Expr) : Prop :=
  ∀ d, depth ≤ d → ∀ {struct e' tokens rest}, EndsPathExpr struct tokens →
    (Grammar.atDepth d).Trails e tokens e' rest → e'.isRaw = false →
    Reads ((Grammar.atDepth d).readOperand struct) (code ++ tokens) e' rest

theorem IsOperand.mono {depth depth' : Nat} {code : List Token} {e : Expr}
    (h : IsOperand depth code e) (hdepth : depth ≤ depth') : IsOperand depth' code e :=
  fun d hd => h d (Nat.le_trans hdepth hd)

theorem endsPathExpr_op_dot {struct : Bool} (tokens : List Token) :
    EndsPathExpr struct (Code.op "." ++ tokens) := by
  constructor <;> intros <;> rfl

theorem endsPathExpr_parens {struct : Bool} (content tokens : List Token) :
    EndsPathExpr struct (Code.parens content ++ tokens) := by
  constructor <;> intros <;> rfl

theorem beginsBare_wordPathCode {rooted : Bool} {first : String} {more : List String}
    {tokens : List Token} : BeginsBare (wordPathCode rooted first more ++ tokens) := by
  cases rooted <;> constructor <;> rfl

/-- A path of words is an operand. -/
theorem isOperand_wordPath (rooted : Bool) {first : String} {more : List String}
    (hfirst : IsPathWord first) (hmore : ∀ text ∈ more, IsPathWord text) :
    IsOperand 0 (wordPathCode rooted first more) (wordPathExpr rooted first more) := by
  intro d _ struct e' tokens rest hrest htrails hraw
  exact Grammar.reads_readOperand _ beginsBare_wordPathCode
    (Grammar.reads_atom_path _ hfirst hmore hrest) htrails hraw

/-- A name is an operand. -/
theorem isOperand_name (name : String) (hname : IsPathWord name) :
    IsOperand 0 (Code.word name) (wordPathExpr false name []) :=
  isOperand_wordPath false hname (List.forall_mem_nil _)

/-- A literal is an operand. -/
theorem isOperand_literal (text : String) : IsOperand 0 [.literal text] (.literal text) := by
  intro d _ struct e' tokens rest _ htrails hraw
  refine Grammar.reads_readOperand _ (by constructor <;> rfl) ?_ htrails hraw
  exact reads_ahead_bind ((reads_literal text tokens).bind (reads_pure _ _))

/-- The call of an operand is an operand. -/
theorem IsOperand.call {depth : Nat} {function : List Token} {e : Expr}
    {pieces : List (List Token)} {args : List Expr} (h : IsOperand depth function e)
    (hargs : ∀ d, depth ≤ d → ReadsEach ((Grammar.atDepth d).expr true) pieces args) :
    IsOperand depth (callCode function pieces) (.call e (.ofList args)) := by
  intro d hd struct e' tokens rest _ htrails hraw
  rw [callCode, List.append_assoc]
  exact h d hd (endsPathExpr_parens _ _) (.call _ (hargs d hd) htrails) hraw

/-- The call of a method of an operand is an operand. -/
theorem IsOperand.methodCall {depth : Nat} {receiver : List Token} {e : Expr}
    {pieces : List (List Token)} {args : List Expr} (h : IsOperand depth receiver e) (name : String)
    (hrange : e.isRange = false) (hname : isName name = true)
    (hargs : ∀ d, depth ≤ d → ReadsEach ((Grammar.atDepth d).expr true) pieces args) :
    IsOperand depth (methodCode receiver name pieces)
      (.methodCall e name .absent (.ofList args)) := by
  intro d hd struct e' tokens rest _ htrails hraw
  have hcode : methodCode receiver name pieces ++ tokens = receiver ++
      (Code.op "." ++ Code.word name ++ Code.parens (Code.separated (Code.op ",") pieces) ++
        tokens) := by
    simp only [methodCode, callCode, List.append_assoc]
  rw [hcode]
  refine h d hd ?_ (.methodCall _ hrange hname (hargs d hd) htrails) hraw
  simp only [List.append_assoc]
  exact endsPathExpr_op_dot _

theorem readsEach_nil {α : Type} {item : Parser α} : ReadsEach item [] [] :=
  .nil

/-- The call of a method without arguments of an operand is an operand. -/
theorem IsOperand.methodCall_nil {depth : Nat} {receiver : List Token} {e : Expr}
    (h : IsOperand depth receiver e) (name : String) (hrange : e.isRange = false)
    (hname : isName name = true) :
    IsOperand depth (methodCode receiver name []) (.methodCall e name .absent .nil) :=
  h.methodCall name hrange hname fun _ _ => readsEach_nil

/-! ## Expressions -/

/-- To the depth `depth` and deeper, the code is read as the expression `e` where an expression may
end. -/
def IsExpr (depth : Nat) (code : List Token) (e : Expr) : Prop :=
  ∀ d, depth ≤ d → ∀ {struct rest}, EndsExpr struct rest →
    Reads ((Grammar.atDepth d).expr struct) (code ++ rest) e rest

theorem IsExpr.mono {depth depth' : Nat} {code : List Token} {e : Expr}
    (h : IsExpr depth code e) (hdepth : depth ≤ depth') : IsExpr depth' code e :=
  fun d hd => h d (Nat.le_trans hdepth hd)

theorem IsOperand.reads_expr {depth d : Nat} {code : List Token} {left e : Expr}
    (h : IsOperand depth code left) (hd : depth ≤ d) {struct : Bool} {tokens rest : List Token}
    (hleft : left.isRaw = false) (hcontinues : EndsPathExpr struct tokens)
    (htrailers : EndsTrailers tokens)
    (hoperates : (Grammar.atDepth d).Operates struct .lowest left tokens e rest) :
    Reads ((Grammar.atDepth (d + 1)).expr struct) (code ++ tokens) e rest :=
  Grammar.reads_readExpr _ (h d hd hcontinues (.ends _ htrailers) hleft) hoperates

/-- An operand is an expression. -/
theorem IsOperand.isExpr {depth : Nat} {code : List Token} {e : Expr} (h : IsOperand depth code e)
    (hraw : e.isRaw = false) : IsExpr (depth + 1) code e := by
  intro d hd struct rest hrest
  obtain _ | d := d
  · cases hd
  · exact h.reads_expr (Nat.le_of_succ_le_succ hd) hraw hrest.endsPathExpr hrest.endsTrailers
      (.ends _ hrest.endsOperators)

/-- An operand that is cast is read as such where the type is. -/
theorem IsOperand.reads_cast {depth d : Nat} {code typeCode : List Token} {e : Expr} {type : Ty}
    (h : IsOperand depth code e) (hd : depth ≤ d) (hraw : e.isRaw = false)
    (hrange : e.isRange = false) {struct : Bool} {rest : List Token} (hrest : EndsExpr struct rest)
    (htype : Reads ((Grammar.atDepth d).type false) (typeCode ++ rest) type rest) :
    Reads ((Grammar.atDepth (d + 1)).expr struct) (code ++ Code.word "as" ++ typeCode ++ rest)
      (.cast e type) rest := by
  rw [List.append_assoc, List.append_assoc]
  refine h.reads_expr hd hraw ?_ ?_ ?_
  · constructor <;> intros <;> rfl
  · constructor <;> rfl
  · rw [← List.append_assoc]
    refine .cast _ hrange htype ?_ (.ends _ hrest.endsOperators)
    cases hrest <;> rfl

/-- A reference to an expression without operators is an expression. -/
theorem IsOperand.isExpr_reference {depth : Nat} {code : List Token} {e : Expr}
    (h : IsOperand depth code e) (hraw : e.isRaw = false) (hword : atWord "raw" code = false)
    (hmut : atWord "mut" code = false) (hne : code ≠ []) :
    IsExpr (depth + 2) (referenceCode code) (.reference false e) := by
  intro d hd struct rest hrest
  obtain _ | _ | d := d
  · cases hd
  · cases Nat.le_of_succ_le_succ hd
  have hd := Nat.le_of_succ_le_succ (Nat.le_of_succ_le_succ hd)
  have hatWord : ∀ k, atWord k (code ++ rest) = atWord k code := by
    intro k
    cases code with
    | nil => exact absurd rfl hne
    | cons t _ => cases t <;> rfl
  rw [referenceCode, List.append_assoc]
  refine Grammar.reads_readExpr _ ?_ (.ends _ hrest.endsOperators)
  refine Grammar.reads_readOperand_reference _ ?_ ?_ ?_
  · rw [hatWord, hword]
  · rw [hatWord, hmut]
  · exact h d hd hrest.endsPathExpr (.ends _ hrest.endsTrailers) hraw

end ForeignWrap.Syntax
