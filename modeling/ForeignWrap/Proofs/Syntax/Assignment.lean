import ForeignWrap.Proofs.Syntax.Statement
import ForeignWrap.Proofs.Syntax.Type

/-!
# Arrays as code

Code that makes an array and fills it is read as what it says: a macro with its arguments, an
assignment to each slot, and a loop over a sequence.

## Main definitions

* `ForeignWrap.Syntax.IsRightSide`: code of what is assigned.
* `ForeignWrap.Syntax.isStmt_assign`: an assignment.
* `ForeignWrap.Syntax.Grammar.reads_stmtOrEmpty_for`: a loop over a sequence of pairs.
-/

namespace ForeignWrap.Syntax

open Code (Delimiter Token word parens brackets braces separated)
open Syntax.Parser

namespace Grammar

variable (g : Grammar) {rest : List Token}

/-! ## Slots -/

/-- The element of what was read. -/
theorem Trails.index {base e index : Expr} {content tokens : List Token}
    (hindex : Reads (g.expr true) content index [])
    (h : g.Trails (.index base index) tokens e rest) :
    g.Trails base (brackets content ++ tokens) e rest := by
  have hinside : Reads (do return some (Tree.index base (← inside .bracket (g.expr true))))
      (brackets content ++ tokens) (some (.index base index)) tokens :=
    (reads_inside hindex).bind (reads_pure _ _)
  refine .more (.of_opens [] (fun _ _ => by exact rfl) hinside) ?_ h
  simp [brackets]

/-! ## Operators -/

theorem reads_tighterUpTo {struct : Bool} {precedence : Precedence} {right : Expr} (bound : Nat)
    (hrest : nextPrecedence rest = .lowest) :
    Reads (g.tighterUpTo struct precedence (bound + 1) right) rest right rest := by
  refine reads_ahead_bind ?_
  have hloose : (decide (precedence.rank < (nextPrecedence rest).rank) ||
      decide (nextPrecedence rest = precedence) && decide (precedence = .assign)) = false := by
    rw [hrest]
    cases precedence <;> rfl
  simp only [hloose, Bool.false_eq_true, if_false]
  exact reads_pure _ _

/-- An operand where no operator follows is the right side of an operator. -/
theorem reads_readRightSide {struct : Bool} {precedence : Precedence} {right : Expr}
    {tokens : List Token} (hrest : nextPrecedence rest = .lowest)
    (h : Reads (g.readOperand struct) tokens right rest) :
    Reads (g.readRightSide struct precedence) tokens right rest :=
  h.bind (reads_ahead_bind (reads_tighterUpTo g _ hrest))

/-- A cast belongs to the right side of an assignment. -/
theorem reads_readRightSide_cast {struct : Bool} {right : Expr} {type : Ty}
    {tokens typeCode : List Token}
    (hright : Reads (g.readOperand struct) (tokens ++ (word "as" ++ typeCode ++ rest)) right
      (word "as" ++ typeCode ++ rest))
    (hrange : right.isRange = false)
    (htype : Reads (g.type false) (typeCode ++ rest) type rest) (hafter : afterCast? rest = none)
    (hends : EndsOperators rest) (hrest : nextPrecedence rest = .lowest) :
    Reads (g.readRightSide struct .assign) (tokens ++ (word "as" ++ typeCode ++ rest))
      (.cast right type) rest := by
  have hcast : Reads (g.operations struct .cast right) (word "as" ++ typeCode ++ rest)
      (.cast right type) rest :=
    (Operates.cast g hrange htype hafter (.ends g hends)).reads
  refine hright.bind (reads_ahead_bind (reads_ahead_bind ?_))
  have hnext : nextPrecedence (word "as" ++ typeCode ++ rest) = .cast := rfl
  rw [hnext, if_pos (by rfl)]
  refine hcast.bind (reads_ahead_bind ?_)
  have hlength : rest.length ≠ (word "as" ++ typeCode ++ rest).length := by
    simp [word]
    omega
  rw [if_neg hlength]
  exact reads_tighterUpTo g _ hrest

/-- A sum of what was read and another expression. -/
theorem Operates.add {struct : Bool} {left right e : Expr} {tokens middle : List Token}
    (hleft : left.isRange = false)
    (hright : Reads (g.rightSide struct .sum) (tokens ++ middle) right middle)
    (h : g.Operates struct .lowest (.binary .add left right) middle e rest) :
    g.Operates struct .lowest left (Code.op "+" ++ (tokens ++ middle)) e rest := by
  refine .more (reads_ahead_bind ?_) ?_ h
  · have hbinary : binaryOp? (Code.op "+" ++ (tokens ++ middle)) = some .add := rfl
    simp only [hleft, hbinary, Bool.false_eq_true, if_false]
    rw [if_neg (by decide), if_neg (by rintro ⟨⟩)]
    exact (reads_op (by decide) _).bind (hright.bind (reads_pure _ _))
  · simp +arith [Code.op, Code.opSigns]

/-- An assignment to what was read. -/
theorem Operates.assign {struct : Bool} {left right e : Expr} {tokens middle : List Token}
    (hleft : left.isRange = false)
    (hright : Reads (g.rightSide struct .assign) (tokens ++ middle) right middle)
    (h : g.Operates struct .lowest (.assign left right) middle e rest) :
    g.Operates struct .lowest left (Code.op "=" ++ (tokens ++ middle)) e rest := by
  refine .more (reads_ahead_bind ?_) ?_ h
  · have hbinary : binaryOp? (Code.op "=" ++ (tokens ++ middle)) = none := rfl
    have hassign : atAssign (Code.op "=" ++ (tokens ++ middle)) = true := rfl
    simp only [hleft, hbinary, hassign, Bool.false_eq_true, if_false]
    rw [if_pos (by decide)]
    exact (reads_op (by decide) _).bind (hright.bind (reads_pure _ _))
  · simp +arith [Code.op, Code.opSigns]

/-! ## Macros -/

/-- A macro that is used by its name, with brackets. -/
def macroOf (name : String) (content : List Token) : Expr :=
  .macroExpr ⟨⟨false, [name]⟩, .bracket, content⟩

theorem reads_atom_macro {struct : Bool} {name : String} {content : List Token}
    (hname : isName name = true) :
    Reads (g.atom struct) (word name ++ (Code.op "!" ++ (brackets content ++ rest)))
      (macroOf name content) rest := by
  have hpath : Reads (g.qualifiedPath true)
      (wordPathCode false name [] ++ (Code.op "!" ++ (brackets content ++ rest)))
      (wordPath false name []) (Code.op "!" ++ (brackets content ++ rest)) :=
    reads_qualifiedPath g (.inl hname) (List.forall_mem_nil _) ⟨rfl, by simp⟩
  refine reads_atom_word g (.inl hname) rfl (hpath.bind (reads_ahead_bind ?_))
  have hbang : atBang (Code.op "!" ++ (brackets content ++ rest)) = true := rfl
  have hnames : (wordPath false name []).names? = some ⟨false, [name]⟩ := rfl
  simp only [hbang, hnames, if_true]
  have hcall : Reads (macroCall ⟨false, [name]⟩) (Code.op "!" ++ (brackets content ++ rest))
      ⟨⟨false, [name]⟩, .bracket, content⟩ rest :=
    (reads_op (by decide) _).bind ((reads_anyGroup _ _ _).bind (reads_pure _ _))
  exact hcall.bind (reads_pure _ _)

/-! ## Arrays -/

theorem reads_atom_array {struct : Bool} {first next : List Token} {more : List (List Token)}
    {e : Expr} {es : List Expr} (hfirst : first ≠ [])
    (he : ∀ rest, AtListEnd rest → Reads (g.expr true) (first ++ rest) e rest)
    (hmore : ReadsEach (g.expr true) (next :: more) es) :
    Reads (g.atom struct) (brackets (separated (Code.op ",") (first :: next :: more)) ++ rest)
      (.array (.ofList (e :: es))) rest := by
  have harray : Reads g.array (brackets (separated (Code.op ",") (first :: next :: more)) ++ rest)
      (.array (.ofList (e :: es))) rest := by
    rw [separated, List.append_assoc]
    refine reads_inside (reads_ahead_bind ?_)
    rw [if_neg (by simp [hfirst])]
    refine (he _ (.inr ⟨_, _, rfl⟩)).bind (reads_ahead_bind ?_)
    rw [if_neg (by simp [Code.op, Code.opSigns])]
    have hcomma : Reads (op? ",") (Code.op "," ++ separated (Code.op ",") (next :: more)) true
        (separated (Code.op ",") (next :: more)) := reads_op?_true rfl
    exact hcomma.bind ((reads_commaList hmore).bind (reads_pure _ _))
  exact .of_opens [] (fun _ _ => by exact rfl) harray

/-! ## Paths of a type -/

/-- A path that begins with a type between angle brackets. -/
def typedPath (type : Ty) (name : String) : Tree .path :=
  .path (.present type) 0 true (.ofList [.segment name])

/-- A path that begins with a type between angle brackets, as code. -/
def typedPathCode (typeCode : List Token) (name : String) : List Token :=
  Code.op "<" ++ typeCode ++ Code.op ">" ++ Code.op "::" ++ word name

theorem reads_atom_typedPath {struct : Bool} {typeCode : List Token} {type : Ty} {name : String}
    (hname : isName name = true)
    (htype : ∀ rest, Reads (g.type true) (typeCode ++ (Code.op ">" ++ rest)) type
      (Code.op ">" ++ rest))
    (hrest : EndsPathExpr struct rest) :
    Reads (g.atom struct) (typedPathCode typeCode name ++ rest) (.pathExpr (typedPath type name))
      rest := by
  have hcode : typedPathCode typeCode name ++ rest = Code.op "<" ++ (typeCode ++ (Code.op ">" ++
      (Code.op "::" ++ (word name ++ rest)))) := by
    simp only [typedPathCode, List.append_assoc]
  rw [hcode]
  have hseen : Reads g.seenAs (Code.op ">" ++ (Code.op "::" ++ (word name ++ rest))) (true, [])
      (Code.op ">" ++ (Code.op "::" ++ (word name ++ rest))) :=
    (reads_keyword?_false rfl).bind (reads_pure _ _)
  have hsegment : Reads (g.segment true) (word name ++ rest) (.segment name) rest :=
    reads_segment g (.inl hname) (by simp) (by simp [hrest.colons])
  have hmore : Reads (collect do
      if !(← op? "::") then return none
      return some (← g.segment true)) rest [] rest :=
    (CollectsIn.done ((reads_op?_false hrest.colons).bind (reads_pure _ _))).reads
  have hpath : Reads (g.qualifiedPath true) (Code.op "<" ++ (typeCode ++ (Code.op ">" ++
      (Code.op "::" ++ (word name ++ rest))))) (typedPath type name) rest := by
    refine reads_ahead_bind ?_
    rw [if_neg (by exact Bool.false_ne_true)]
    refine (reads_op (by decide) _).bind ((htype _).bind (hseen.bind ?_))
    refine (reads_op (by decide) _).bind ((reads_op (by decide) _).bind ?_)
    exact hsegment.bind (hmore.bind (reads_pure _ _))
  have hexpr : Reads (g.pathLikeExpr struct) (Code.op "<" ++ (typeCode ++ (Code.op ">" ++
      (Code.op "::" ++ (word name ++ rest))))) (.pathExpr (typedPath type name)) rest := by
    refine hpath.bind (reads_ahead_bind ?_)
    have hbang : atBang rest = false := by simp [atBang, hrest.bang]
    have hbrace : (struct && atGroup .brace rest) = false := by
      cases struct
      · rfl
      · exact hrest.brace rfl
    simp only [hbang, hbrace, Bool.false_eq_true, if_false]
    exact reads_pure _ _
  exact .of_opens [] (fun _ _ => by exact rfl) hexpr

/-! ## Patterns -/

/-- A variable that may be changed. -/
theorem reads_readPat_mut {name : String} (hname : isName name = true)
    (hrest : atOp "@" rest = false) :
    Reads g.readPat (word "mut" ++ (word name ++ rest))
      (.identPat false true name .absent) rest := by
  have hmut : Reads (keyword? "mut") (word "mut" ++ (word name ++ rest)) true (word name ++ rest) :=
    reads_keyword?_true _ _
  have hself : atWord "self" (word name ++ rest) = false := atWord_word_of_isName hname (by decide)
  have hident : Reads g.identPat (word "mut" ++ (word name ++ rest))
      (.identPat false true name .absent) rest := by
    refine (reads_keyword?_false rfl).bind (hmut.bind (reads_ahead_bind ?_))
    simp only [hself, Bool.false_eq_true, if_false]
    refine (reads_name hname _).bind ((reads_op?_false hrest).bind ?_)
    exact (reads_pure _ _).bind (reads_pure _ _)
  exact .of_opens [] (fun _ _ => by exact rfl) hident

theorem reads_alternativePats {tokens : List Token} {pat : Pat} (hbar : atOp "|" tokens = false)
    (hpat : Reads g.pat tokens pat rest) (hrest : atOp "|" rest = false) :
    Reads g.alternativePats tokens pat rest := by
  refine (reads_op?_false hbar).bind (hpat.bind ?_)
  have hmore : Reads (collect do
      let tokens ← ahead
      if !atOp "|" tokens || atOp "||" tokens || atOp "|=" tokens then return none
      op "|"
      return some (← g.pat)) rest [] rest := by
    refine (CollectsIn.done (reads_ahead_bind ?_)).reads
    simp only [hrest, Bool.not_false, Bool.true_or, if_true]
    exact reads_pure _ _
  exact hmore.bind (reads_pure _ _)

/-- The pattern of a pair. -/
def pairPat (first second : String) : Pat :=
  .tuplePat
    (.ofList [.identPat false false first .absent, .identPat false false second .absent]) true

theorem reads_readPat_pair {first second : String}
    (hfirst : Reads g.pat (word first ++ (Code.op "," ++ word second))
      (.identPat false false first .absent) (Code.op "," ++ word second))
    (hsecond : ∀ rest, AtListEnd rest → Reads g.pat (word second ++ rest)
      (.identPat false false second .absent) rest) :
    Reads g.readPat (parens (word first ++ Code.op "," ++ word second) ++ rest)
      (pairPat first second) rest := by
  have hmore : ReadsEach g.alternativePats [word second]
      [.identPat false false second .absent] := by
    refine .cons ⟨by simp [word], fun rest hrest => ?_⟩ .nil
    refine reads_alternativePats g rfl (hsecond rest hrest) ?_
    obtain rfl | ⟨joint, more, rfl⟩ := hrest <;> rfl
  have hpats : Reads g.parenthesizedPat
      (parens (word first ++ (Code.op "," ++ word second)) ++ rest)
      (pairPat first second) rest := by
    refine reads_inside ((reads_atEnd _).bind ?_)
    rw [if_neg (by simp [word])]
    refine (reads_alternativePats g rfl hfirst rfl).bind ((reads_atEnd _).bind ?_)
    rw [if_neg (by simp [Code.op, Code.opSigns])]
    exact (reads_op (by decide) _).bind ((reads_commaList hmore).bind (reads_pure _ _))
  rw [List.append_assoc]
  exact .of_opens [] (fun _ _ => by exact rfl) hpats

/-! ## Loops -/

/-- A loop over what an expression yields, as code. -/
def forCode (pat : List Token) (sequence body : List Token) : List Token :=
  word "for" ++ (pat ++ (word "in" ++ (sequence ++ braces body)))

theorem reads_forLoop {pat : Pat} {content sequence body : List Token} {e : Expr}
    {stmts : List Stmt}
    (hpat : Reads g.pat (parens content ++ (word "in" ++ (sequence ++ (braces body ++ rest)))) pat
      (word "in" ++ (sequence ++ (braces body ++ rest))))
    (hsequence : Reads (g.expr false) (sequence ++ (braces body ++ rest)) e (braces body ++ rest))
    (hhash : atOp "#" body = false) (hbody : Reads g.stmts body stmts []) :
    Reads (g.forLoop none) (forCode (parens content) sequence body ++ rest)
      (.forLoop none pat e (stmtsBlock stmts)) rest := by
  simp only [forCode, List.append_assoc]
  refine (reads_keyword _ _).bind ((reads_alternativePats g rfl hpat rfl).bind ?_)
  refine (reads_keyword _ _).bind (hsequence.bind ?_)
  exact (reads_attributedBlock g hhash hbody).bind (reads_pure _ _)

/-- Where neither a dot nor a question mark goes on with a block. -/
structure EndsBlockStmt (tokens : List Token) : Prop where
  dot : atDot tokens = false
  question : atOp "?" tokens = false
  semicolon : atOp ";" tokens = false

/-- A loop is a statement of its own. -/
theorem reads_stmtOrEmpty_for {pat : Pat} {content sequence body : List Token} {e : Expr}
    {stmts : List Stmt} (hrest : EndsBlockStmt rest)
    (h : Reads (g.forLoop none) (forCode (parens content) sequence body ++ rest)
      (.forLoop none pat e (stmtsBlock stmts)) rest) :
    Reads g.stmtOrEmpty (forCode (parens content) sequence body ++ rest)
      (.exprStmt (.forLoop none pat e (stmtsBlock stmts)) false) rest := by
  have hleading : Reads g.readLeading (forCode (parens content) sequence body ++ rest)
      (.forLoop none pat e (stmtsBlock stmts)) rest := by
    have hreader : Reads (do
        let expr ← g.forLoop none
        let tokens ← ahead
        if atDot tokens || atOp "?" tokens then
          let expr ← trailers g expr
          operations g true .lowest (expr.withAttributes [])
        else return expr.withAttributes []) (forCode (parens content) sequence body ++ rest)
        (.forLoop none pat e (stmtsBlock stmts)) rest := by
      refine h.bind (reads_ahead_bind ?_)
      simp only [hrest.dot, hrest.question, Bool.or_self, Bool.false_eq_true, if_false]
      exact reads_pure _ _
    exact (reads_outerAttributes_nil g rfl).bind hreader
  refine reads_stmtOrEmpty g rfl ?_ (by simp [Tree.needsSemicolon, Tree.isOpenStmt, Tree.endsArm])
  refine reads_stmt_of_exprStmt g rfl (.inl (fails_namePath rfl rfl)) rfl rfl ?_
  exact reads_exprStmt g ⟨by simp, by simp⟩ hleading (reads_op?_false hrest.semicolon)

end Grammar

open Grammar (macroOf pairPat typedPath typedPathCode)

/-! ## Operands at a depth -/

/-- An element of an operand is an operand. -/
theorem IsOperand.index {depth : Nat} {code content : List Token} {e index : Expr}
    (h : IsOperand depth code e)
    (hindex : ∀ d, depth ≤ d → Reads ((Grammar.atDepth d).expr true) content index []) :
    IsOperand depth (code ++ brackets content) (.index e index) := by
  intro d hd struct e' tokens rest _ htrails hraw
  rw [List.append_assoc]
  refine h d hd ?_ (.index _ (hindex d hd) htrails) hraw
  constructor <;> intros <;> rfl

/-- A macro is an operand. -/
theorem isOperand_macro {name : String} (content : List Token) (hname : isName name = true) :
    IsOperand 0 (word name ++ Code.op "!" ++ brackets content) (macroOf name content) := by
  intro d _ struct e' tokens rest _ htrails hraw
  rw [List.append_assoc, List.append_assoc]
  refine Grammar.reads_readOperand _ ?_ (Grammar.reads_atom_macro _ hname) htrails hraw
  constructor <;> rfl

/-- An array of several elements is an operand. -/
theorem isOperand_array {depth : Nat} {first next : List Token} {more : List (List Token)}
    {e : Expr} {es : List Expr}
    (h : ∀ d, depth ≤ d →
      ReadsEach ((Grammar.atDepth d).expr true) (first :: next :: more) (e :: es)) :
    IsOperand depth (brackets (separated (Code.op ",") (first :: next :: more)))
      (.array (.ofList (e :: es))) := by
  intro d hd struct e' tokens rest _ htrails hraw
  obtain ⟨⟨hne, hfirst⟩, hmore⟩ := List.forall₂_cons.1 (h d hd)
  refine Grammar.reads_readOperand _ (by constructor <;> rfl) ?_ htrails hraw
  exact Grammar.reads_atom_array _ hne hfirst hmore

/-- A path that begins with a type is an operand. -/
theorem isOperand_typedPath {depth : Nat} {typeCode : List Token} {type : Ty} {name : String}
    (hname : isName name = true) (htype : IsType depth typeCode type) :
    IsOperand depth (typedPathCode typeCode name) (.pathExpr (typedPath type name)) := by
  intro d hd struct e' tokens rest hrest htrails hraw
  refine Grammar.reads_readOperand _ ?_ (Grammar.reads_atom_typedPath _ hname ?_ hrest) htrails hraw
  · simp only [typedPathCode, List.append_assoc]
    constructor <;> rfl
  · exact fun rest => htype d hd true .angle

/-! ## Assignments at a depth -/

theorem EndsExpr.nextPrecedence_eq {struct : Bool} {rest : List Token} (h : EndsExpr struct rest) :
    nextPrecedence rest = .lowest := by
  cases h <;> rfl

/-- To the depth `depth` and deeper, the code is read as the right side of an assignment. -/
def IsRightSide (depth : Nat) (code : List Token) (e : Expr) : Prop :=
  ∀ d, depth ≤ d → ∀ {rest}, EndsExpr true rest →
    Reads ((Grammar.atDepth d).rightSide true .assign) (code ++ rest) e rest

theorem IsRightSide.mono {depth depth' : Nat} {code : List Token} {e : Expr}
    (h : IsRightSide depth code e) (hdepth : depth ≤ depth') : IsRightSide depth' code e :=
  fun d hd => h d (Nat.le_trans hdepth hd)

theorem IsOperand.reads_rightSide {depth d : Nat} {code : List Token} {e : Expr} {struct : Bool}
    {precedence : Precedence} {rest : List Token} (h : IsOperand depth code e) (hd : depth ≤ d)
    (hraw : e.isRaw = false) (hrest : EndsExpr struct rest) :
    Reads ((Grammar.atDepth (d + 1)).rightSide struct precedence) (code ++ rest) e rest :=
  Grammar.reads_readRightSide _ hrest.nextPrecedence_eq
    (h d hd hrest.endsPathExpr (.ends _ hrest.endsTrailers) hraw)

theorem IsOperand.isRightSide {depth : Nat} {code : List Token} {e : Expr}
    (h : IsOperand depth code e) (hraw : e.isRaw = false) : IsRightSide (depth + 1) code e := by
  intro d hd rest hrest
  obtain _ | d := d
  · cases hd
  · exact h.reads_rightSide (Nat.le_of_succ_le_succ hd) hraw hrest

theorem IsOperand.isRightSide_cast {depth : Nat} {code typeCode : List Token} {e : Expr}
    {type : Ty} (h : IsOperand depth code e) (hraw : e.isRaw = false) (hrange : e.isRange = false)
    (htype : IsType depth typeCode type) :
    IsRightSide (depth + 1) (code ++ word "as" ++ typeCode) (.cast e type) := by
  intro d hd rest hrest
  obtain _ | d := d
  · cases hd
  have hd := Nat.le_of_succ_le_succ hd
  rw [List.append_assoc, List.append_assoc, ← List.append_assoc (word "as")]
  refine Grammar.reads_readRightSide_cast _ (h d hd ?_ (.ends _ ?_) hraw) hrange
    (htype d hd false (.of_endsExpr hrest)) ?_ hrest.endsOperators hrest.nextPrecedence_eq
  · constructor <;> intros <;> rfl
  · constructor <;> rfl
  · cases hrest <;> rfl

/-- A sum of two operands is an expression. -/
theorem IsOperand.isExpr_add {depth : Nat} {code other : List Token} {left right : Expr}
    (hleft : IsOperand depth code left) (hright : IsOperand depth other right)
    (hraw : left.isRaw = false) (hrange : left.isRange = false) (hother : right.isRaw = false) :
    IsExpr (depth + 2) (code ++ Code.op "+" ++ other) (.binary .add left right) := by
  intro d hd struct rest hrest
  obtain _ | _ | d := d
  · cases hd
  · cases Nat.le_of_succ_le_succ hd
  have hd := Nat.le_of_succ_le_succ (Nat.le_of_succ_le_succ hd)
  rw [List.append_assoc, List.append_assoc]
  refine hleft.reads_expr (Nat.le_succ_of_le hd) hraw ?_ ?_
    (.add _ hrange (hright.reads_rightSide hd hother hrest) (.ends _ hrest.endsOperators))
  · constructor <;> intros <;> rfl
  · constructor <;> rfl

/-- An assignment is a statement. -/
theorem isStmt_assign {depth : Nat} {place value : List Token} {left right : Expr}
    (hplace : IsOperand depth place left) (hvalue : IsRightSide depth value right)
    (hbegins : ∀ rest, Grammar.BeginsExprStmt (place ++ (Code.op "=" ++ rest)))
    (hraw : left.isRaw = false) (hrange : left.isRange = false) :
    IsStmt depth (place ++ Code.op "=" ++ value ++ Code.op ";")
      (.exprStmt (.assign left right) true) := by
  refine ⟨by simp [Code.op, Code.opSigns], fun d hd rest => ?_⟩
  simp only [List.append_assoc]
  have hends : EndsExpr true (Code.op ";" ++ rest) := .semicolon
  refine Grammar.reads_stmtOrEmpty _ (hbegins _).semicolon ?_ (by simp [Tree.needsSemicolon])
  refine Grammar.reads_stmt_expr _ (hbegins _) (hplace d hd ?_ (.ends _ ?_) hraw)
    (.assign _ hrange (hvalue d hd hends) (.ends _ hends.endsOperators)) ⟨by simp, by simp⟩
    (reads_op?_true rfl)
  · constructor <;> intros <;> rfl
  · constructor <;> rfl

/-- A statement that names a value of a type, which may be changed. -/
theorem isStmt_letMut {depth : Nat} {name : String} {typeCode value : List Token} {type : Ty}
    {e : Expr} (hdepth : 1 ≤ depth) (hname : isName name = true)
    (htype : IsType depth typeCode type)
    (hvalue : IsExpr depth value e) :
    IsStmt depth (letCode (word "mut" ++ word name ++ Code.op ":" ++ typeCode) value)
      (.letStmt .nil (.typedPat .nil (.identPat false true name .absent) type) (.present e)
        .absent) := by
  refine ⟨by simp [letCode, word], fun d hd rest => ?_⟩
  refine Grammar.reads_stmtOrEmpty _ rfl ?_ (by simp [Tree.needsSemicolon])
  refine Grammar.reads_stmt_let_typed _ ?_ (htype d hd true .equals) (hvalue d hd .semicolon)
  obtain _ | d := d
  · omega
  · rw [List.append_assoc]
    exact Grammar.reads_readPat_mut _ hname rfl

/-- Statements are read one after another up to the end of their block. -/
theorem reads_stmts_closed {depth d : Nat} (hd : depth ≤ d) {codes : List (List Token)}
    {stmts : List Stmt} (h : List.Forall₂ (IsStmt depth) codes stmts) :
    Reads (Grammar.atDepth (d + 1)).stmts codes.flatten stmts [] := by
  have hcollects := collectsIn_stmts hd h (.done (reads_endStep_none _))
  rw [List.append_nil, List.append_nil] at hcollects
  exact reads_untilEnd hcollects

/-- The pattern of a pair of names is read. -/
theorem reads_pat_pair {d : Nat} {first second : String} {rest : List Token} (hd : 2 ≤ d)
    (hfirst : isName first = true) (hsecond : isName second = true) :
    Reads (Grammar.atDepth d).pat (parens (word first ++ Code.op "," ++ word second) ++ rest)
      (pairPat first second) rest := by
  obtain _ | d := d
  · cases hd
  have hd : 1 ≤ d := Nat.le_of_succ_le_succ hd
  refine Grammar.reads_readPat_pair _ (reads_pat_name hd hfirst (by constructor <;> rfl)) ?_
  intro rest hrest
  refine reads_pat_name hd hsecond ?_
  obtain rfl | ⟨joint, more, rfl⟩ := hrest <;> constructor <;> rfl

/-- A loop over a sequence of pairs is a statement in front of what does not go on with it. -/
theorem reads_forStmt {depth d : Nat} {first second : String} {sequence body rest : List Token}
    {e : Expr} {stmts : List Stmt} (hdepth : 2 ≤ depth) (hd : depth ≤ d)
    (hfirst : isName first = true) (hsecond : isName second = true)
    (hsequence : IsExpr depth sequence e) (hhash : atOp "#" body = false)
    (hbody : Reads (Grammar.atDepth d).stmts body stmts []) (hrest : Grammar.EndsBlockStmt rest) :
    Reads (Grammar.atDepth d).stmtOrEmpty
      (Grammar.forCode (parens (word first ++ Code.op "," ++ word second)) sequence body ++ rest)
      (.exprStmt (.forLoop none (pairPat first second) e (stmtsBlock stmts)) false) rest :=
  Grammar.reads_stmtOrEmpty_for _ hrest <| Grammar.reads_forLoop _
    (reads_pat_pair (Nat.le_trans hdepth hd) hfirst hsecond) (hsequence d hd (.block rfl)) hhash
      hbody

end ForeignWrap.Syntax
