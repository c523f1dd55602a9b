import ForeignWrap.Proofs.Syntax.Reading
import ForeignWrap.Syntax.Reader

/-!
# Expressions as code

What the readers of expressions read from the code that methods are put together from: paths of
words, calls and casts after them, blocks and closures. Each reader is opened up once here.

## Main definitions

* `ForeignWrap.Syntax.IsPathWord`: a word that can be a part of a path.
* `ForeignWrap.Syntax.Grammar.wordPath`: a path of words.
* `ForeignWrap.Syntax.Grammar.Trails`: calls and fields that follow what was read.
* `ForeignWrap.Syntax.Grammar.Operates`: operators that follow an operand.
-/

namespace ForeignWrap.Syntax

open Code (Delimiter Token)
open Syntax.Parser

/-! ## Words -/

/-- A name is none of the keywords. -/
theorem atWord_word_of_isName {text keyword : String} {rest : List Token}
    (htext : isName text = true) (hkeyword : keyword ∈ keywords) :
    atWord keyword (.word text :: rest) = false := by
  have hne : text ≠ keyword := by
    rintro rfl
    simp [isName, hkeyword] at htext
  simpa [atWord] using hne

/-- The keywords that can stand for a name in a path. -/
def pathKeywords : List String :=
  ["super", "self", "Self", "crate"]

/-- A word that can be a part of a path. -/
def IsPathWord (text : String) : Prop :=
  isName text = true ∨ text ∈ pathKeywords

theorem atPathName_word {text : String} {rest : List Token} (h : IsPathWord text) :
    atPathName (.word text :: rest) = true := by
  obtain hname | hkeyword := h
  · simp [atPathName, atName, hname]
  · simp only [pathKeywords, List.mem_cons, List.not_mem_nil, or_false] at hkeyword
    obtain rfl | rfl | rfl | rfl := hkeyword <;> simp [atPathName, atWord]

/-- A part of a path is none of the other keywords. -/
theorem atWord_word_of_isPathWord {text keyword : String} {rest : List Token}
    (htext : IsPathWord text) (hkeyword : keyword ∈ keywords) (hpath : keyword ∉ pathKeywords) :
    atWord keyword (.word text :: rest) = false := by
  obtain hname | htext := htext
  · exact atWord_word_of_isName hname hkeyword
  · have hne : text ≠ keyword := by
      rintro rfl
      exact hpath htext
    simpa [atWord] using hne

/-- Where a path that has been read is at its end. -/
structure EndsPath (inExpr : Bool) (tokens : List Token) : Prop where
  colons : atOp "::" tokens = false
  angle : inExpr = false → atOp "<" tokens = false

namespace Grammar

variable (g : Grammar) {rest : List Token}

theorem reads_segment {inExpr : Bool} {text : String} (htext : IsPathWord text)
    (hangle : inExpr = false → atOp "<" rest = false)
    (hcolons : atOp "::" rest = true → atOp "<" (skip (skip rest)) = false) :
    Reads (g.segment inExpr) (.word text :: rest) (.segment text) rest := by
  unfold segment
  refine reads_ahead_bind ?_
  have hword : ∀ k, atWord k (.word text :: rest) = (text == k) := fun _ => rfl
  simp only [hword]
  by_cases hspecial : (text == "super" || text == "self" || text == "crate" || text == "try") = true
  · rw [if_pos hspecial]
    exact (reads_anyWord _ _).bind (reads_pure _ _)
  rw [if_neg hspecial]
  have hargs : ((!inExpr && atOp "<" rest && !atOp "<=" rest && !atOp "<<=" rest) ||
      (atOp "::" rest && atOp "<" (skip (skip rest)))) = false := by
    cases inExpr <;> cases h : atOp "::" rest <;> simp_all
  split
  case isTrue hself =>
    refine (reads_anyWord _ _).bind (reads_ahead_bind ?_)
    simp only [hargs, Bool.false_eq_true, if_false]
    exact reads_pure _ _
  case isFalse hself =>
    have hname : isName text = true := by
      simp only [IsPathWord, pathKeywords, List.mem_cons, List.not_mem_nil, or_false] at htext
      simp at hspecial hself
      rcases htext with h | h | h | h | h <;> simp_all
    refine (reads_name hname _).bind (reads_ahead_bind ?_)
    simp only [hargs, Bool.false_eq_true, if_false]
    exact reads_pure _ _

/-- The parts of a path after its first one. -/
def partsCode (words : List String) : List Token :=
  words.flatMap fun text => Code.op "::" ++ Code.word text

/-- What follows a part of a path that is a word lets the part end there. -/
theorem reads_segment_of_endsPath {inExpr : Bool} {text : String} {words : List String}
    (htext : IsPathWord text) (hrest : EndsPath inExpr rest) :
    Reads (g.segment inExpr) (.word text :: (partsCode words ++ rest)) (.segment text)
      (partsCode words ++ rest) := by
  apply reads_segment g htext
  · intro hexpr
    cases words with
    | nil => exact hrest.angle hexpr
    | cons _ _ => rfl
  · intro hcolons
    cases words with
    | nil =>
      rw [show partsCode [] ++ rest = rest from rfl, hrest.colons] at hcolons
      cases hcolons
    | cons _ _ => rfl

/-- One of the parts of a path after its first. -/
def segmentStep (inExpr : Bool) : Parser (Option (Tree .segment)) := do
  let tokens ← ahead
  if !atOp "::" tokens || atGroup .parenthesis (skip (skip tokens)) then return none
  op "::"
  return some (← g.segment inExpr)

theorem moreSegments_eq_collect (inExpr : Bool) :
    g.moreSegments inExpr = collect (g.segmentStep inExpr) :=
  rfl

theorem reads_segmentStep {inExpr : Bool} {text : String} {tokens : List Token}
    {part : Tree .segment} (h : Reads (g.segment inExpr) (Code.word text ++ tokens) part rest) :
    Reads (g.segmentStep inExpr) (Code.op "::" ++ (Code.word text ++ tokens)) (some part) rest := by
  refine reads_ahead_bind ?_
  rw [if_neg (by exact Bool.false_ne_true)]
  exact (reads_op (by decide) _).bind (h.bind (reads_pure _ _))

theorem reads_moreSegments {inExpr : Bool} {words : List String}
    (hwords : ∀ text ∈ words, IsPathWord text) (hrest : EndsPath inExpr rest) :
    Reads (g.moreSegments inExpr) (partsCode words ++ rest) (words.map .segment) rest := by
  rw [moreSegments_eq_collect]
  apply CollectsIn.reads
  induction words with
  | nil =>
    refine .done (reads_ahead_bind ?_)
    simp only [show partsCode [] ++ rest = rest from rfl, hrest.colons]
    exact reads_pure _ _
  | cons text words ih =>
    obtain ⟨htext, hwords⟩ := List.forall_mem_cons.1 hwords
    refine .more (g.reads_segmentStep (reads_segment_of_endsPath g htext hrest)) ?_ (ih hwords)
    simp [partsCode, Code.op, Code.opSigns]
    omega

/-- A path of words. -/
def wordPath (rooted : Bool) (first : String) (more : List String) : Tree .path :=
  .path .absent 0 rooted (.ofList ((first :: more).map .segment))

/-- A path of words as code. -/
def wordPathCode (rooted : Bool) (first : String) (more : List String) : List Token :=
  (if rooted then Code.op "::" else []) ++ Code.word first ++ partsCode more

theorem reads_rooted (rooted : Bool) (first : String) (more : List String) (rest : List Token) :
    Reads (op? "::") (wordPathCode rooted first more ++ rest) rooted
      (.word first :: (partsCode more ++ rest)) := by
  cases rooted with
  | true => exact reads_op?_true rfl
  | false => exact reads_op?_false rfl

theorem reads_wordPath {inExpr rooted : Bool} {first : String} {more : List String}
    (hfirst : IsPathWord first) (hmore : ∀ text ∈ more, IsPathWord text)
    (hrest : EndsPath inExpr rest) :
    Reads (g.path inExpr) (wordPathCode rooted first more ++ rest) (wordPath rooted first more)
      rest := by
  have hparts : Reads (g.pathParts inExpr) (wordPathCode rooted first more ++ rest)
      (rooted, (first :: more).map .segment) rest := by
    refine (reads_rooted rooted first more rest).bind ?_
    refine (reads_segment_of_endsPath g hfirst hrest).bind ?_
    exact (reads_moreSegments g hmore hrest).bind (reads_pure _ _)
  exact hparts.bind (reads_pure _ _)

/-- A path that begins with no angle bracket is not qualified by a type. -/
theorem reads_qualifiedPath_of_path {inExpr : Bool} {tokens : List Token} {path : Tree .path}
    (hangle : atOp "<" tokens = false) (h : Reads (g.path inExpr) tokens path rest) :
    Reads (g.qualifiedPath inExpr) tokens path rest := by
  refine reads_ahead_bind ?_
  simp only [hangle]
  exact h

theorem reads_qualifiedPath {inExpr rooted : Bool} {first : String} {more : List String}
    (hfirst : IsPathWord first) (hmore : ∀ text ∈ more, IsPathWord text)
    (hrest : EndsPath inExpr rest) :
    Reads (g.qualifiedPath inExpr) (wordPathCode rooted first more ++ rest)
      (wordPath rooted first more) rest :=
  reads_qualifiedPath_of_path g (by cases rooted <;> rfl) (reads_wordPath g hfirst hmore hrest)

/-! ## Atoms -/

/-- Where a path as an expression is at its end. -/
structure EndsPathExpr (struct : Bool) (tokens : List Token) : Prop where
  colons : atOp "::" tokens = false
  bang : atOp "!" tokens = false
  hash : atOp "#" tokens = false
  brace : struct = true → atGroup .brace tokens = false

theorem reads_pathLikeExpr {struct rooted : Bool} {first : String} {more : List String}
    (hfirst : IsPathWord first) (hmore : ∀ text ∈ more, IsPathWord text)
    (hrest : EndsPathExpr struct rest) :
    Reads (g.pathLikeExpr struct) (wordPathCode rooted first more ++ rest)
      (.pathExpr (wordPath rooted first more)) rest := by
  have hends : EndsPath true rest := ⟨hrest.colons, by simp⟩
  refine (reads_qualifiedPath g hfirst hmore hends).bind (reads_ahead_bind ?_)
  have hbang : atBang rest = false := by simp [atBang, hrest.bang]
  have hbrace : (struct && atGroup .brace rest) = false := by
    cases struct
    · rfl
    · exact hrest.brace rfl
  simp only [hbang, hbrace, Bool.false_eq_true, if_false]
  exact reads_pure _ _

/-- A word that begins a path begins nothing else, if no number sign follows it. -/
theorem reads_atom_word {struct : Bool} {first : String} {e : Expr} {tokens : List Token}
    (hfirst : IsPathWord first) (hhash : atOp "#" tokens = false)
    (h : Reads (g.pathLikeExpr struct) (.word first :: tokens) e rest) :
    Reads (g.atom struct) (.word first :: tokens) e rest := by
  have hword : ∀ k ∈ keywords, k ∉ pathKeywords → atWord k (.word first :: tokens) = false :=
    fun _ => atWord_word_of_isPathWord hfirst
  have hliteral : atLiteral (.word first :: tokens) = false := by
    have htrue := hword "true" (by decide) (by decide)
    have hfalse := hword "false" (by decide) (by decide)
    simp only [atWord] at htrue hfalse
    simp only [atLiteral, htrue, hfalse, Bool.or_self]
  have hclosure : atClosure (.word first :: tokens) = false := by
    have hbar : atOp "|" (.word first :: tokens) = false := rfl
    simp only [atClosure, hbar, hword "move" (by decide) (by decide),
      hword "for" (by decide) (by decide), hword "const" (by decide) (by decide),
      hword "static" (by decide) (by decide), hword "async" (by decide) (by decide),
      Bool.false_and, Bool.or_self]
  have hbuiltin : atBuiltin (.word first :: tokens) = false := by
    have hskip : skip (.word first :: tokens) = tokens := rfl
    simp only [atBuiltin, hskip, hhash, Bool.and_false]
  unfold atom
  refine reads_ahead_bind ?_
  simp only [hliteral, hclosure, hbuiltin, atPathName_word hfirst,
    hword "async" (by decide) (by decide), hword "try" (by decide) (by decide), Bool.false_and,
    Bool.true_or, Bool.false_eq_true, if_false, if_true]
  exact h

/-- A path of words as an expression. -/
def wordPathExpr (rooted : Bool) (first : String) (more : List String) : Expr :=
  .pathExpr (wordPath rooted first more)

theorem reads_atom_path {struct rooted : Bool} {first : String} {more : List String}
    (hfirst : IsPathWord first) (hmore : ∀ text ∈ more, IsPathWord text)
    (hrest : EndsPathExpr struct rest) :
    Reads (g.atom struct) (wordPathCode rooted first more ++ rest) (wordPathExpr rooted first more)
      rest := by
  have hpath : Reads (g.pathLikeExpr struct) (wordPathCode rooted first more ++ rest)
      (wordPathExpr rooted first more) rest := reads_pathLikeExpr g hfirst hmore hrest
  cases rooted with
  | true => exact .of_opens [] (fun _ _ => by exact rfl) hpath
  | false =>
    refine reads_atom_word g hfirst ?_ hpath
    cases more with
    | nil => exact hrest.hash
    | cons _ _ => rfl

/-! ## What follows an atom -/

/-- With the things that follow it, `base` is the expression `e`. -/
inductive Trails : (base : Expr) → (tokens : List Token) → (e : Expr) → (rest : List Token) → Prop
  where
  | done {base : Expr} {tokens : List Token} :
      Reads (g.trailer? base) tokens none tokens → Trails base tokens base tokens
  | more {base next e : Expr} {tokens middle rest : List Token} :
      Reads (g.trailer? base) tokens (some next) middle → middle.length < tokens.length →
      Trails next middle e rest → Trails base tokens e rest

variable {g} in
theorem Trails.reads_trailersUpTo {base e : Expr} {tokens : List Token}
    (h : g.Trails base tokens e rest) {bound : Nat} (hbound : tokens.length < bound) :
    Reads (g.trailersUpTo bound base) tokens e rest := by
  induction h generalizing bound with
  | done hstep =>
    obtain ⟨bound, rfl⟩ := Nat.exists_eq_add_of_lt hbound
    exact hstep.bind (reads_pure _ _)
  | more hstep hlength _ ih =>
    obtain _ | bound := bound
    · omega
    · exact hstep.bind (ih (by omega))

variable {g} in
theorem Trails.reads {base e : Expr} {tokens : List Token} (h : g.Trails base tokens e rest) :
    Reads (g.trailers base) tokens e rest :=
  reads_ahead_bind (h.reads_trailersUpTo (Nat.lt_succ_self _))

/-- Where nothing more follows an atom. -/
structure EndsTrailers (tokens : List Token) : Prop where
  parenthesis : atGroup .parenthesis tokens = false
  dot : atDot tokens = false
  bracket : atGroup .bracket tokens = false
  question : atOp "?" tokens = false

theorem Trails.ends {base : Expr} (hrest : EndsTrailers rest) : g.Trails base rest base rest := by
  refine .done (reads_ahead_bind ?_)
  simp only [hrest.parenthesis, hrest.dot, hrest.bracket, hrest.question, Bool.false_and,
    Bool.false_eq_true, if_false]
  exact reads_pure _ _

theorem reads_callArgs {pieces : List (List Token)} {args : List Expr}
    (hargs : ReadsEach (g.expr true) pieces args) :
    Reads g.callArgs (Code.parens (Code.separated (Code.op ",") pieces) ++ rest) args rest :=
  reads_inside (reads_commaList hargs)

/-- The call of what was read. -/
theorem Trails.call {base e : Expr} {pieces : List (List Token)} {args : List Expr}
    {tokens : List Token} (hargs : ReadsEach (g.expr true) pieces args)
    (h : g.Trails (.call base (.ofList args)) tokens e rest) :
    g.Trails base (Code.parens (Code.separated (Code.op ",") pieces) ++ tokens) e rest :=
  .more (reads_ahead_bind ((reads_callArgs g hargs).bind (reads_pure _ _))) (by simp [Code.parens])
    h

/-- The call of a method, after its dot. -/
theorem reads_fieldOrMethod {base : Expr} {method : String} {pieces : List (List Token)}
    {args : List Expr} {tokens : List Token} (hmethod : isName method = true)
    (hargs : ReadsEach (g.expr true) pieces args) :
    Reads (g.fieldOrMethod base)
      (.word method :: (Code.parens (Code.separated (Code.op ",") pieces) ++ tokens))
      (.methodCall base method .absent (.ofList args)) tokens := by
  have hawait : atWord "await" (.word method ::
      (Code.parens (Code.separated (Code.op ",") pieces) ++ tokens)) = false :=
    atWord_word_of_isName hmethod (by decide)
  have hmember : Reads member (.word method ::
      (Code.parens (Code.separated (Code.op ",") pieces) ++ tokens)) (.named method)
      (Code.parens (Code.separated (Code.op ",") pieces) ++ tokens) := by
    refine reads_ahead_bind ?_
    simp only [atName, hmethod, if_true]
    exact (reads_name hmethod _).bind (reads_pure _ _)
  refine (reads_keyword?_false hawait).bind ?_
  simp only [Bool.false_eq_true, if_false]
  refine hmember.bind (reads_ahead_bind ?_)
  rw [if_neg (by exact Bool.false_ne_true)]
  refine (reads_pure _ _).bind (reads_ahead_bind ?_)
  rw [if_pos (by rfl)]
  exact (reads_callArgs g hargs).bind (reads_pure _ _)

/-- The call of a method of what was read. -/
theorem Trails.methodCall {base e : Expr} {method : String} {pieces : List (List Token)}
    {args : List Expr} {tokens : List Token} (hbase : base.isRange = false)
    (hmethod : isName method = true) (hargs : ReadsEach (g.expr true) pieces args)
    (h : g.Trails (.methodCall base method .absent (.ofList args)) tokens e rest) :
    g.Trails base (Code.op "." ++ Code.word method ++
      Code.parens (Code.separated (Code.op ",") pieces) ++ tokens) e rest := by
  refine .more (reads_ahead_bind ?_) ?_ h
  · rw [if_neg (by exact Bool.false_ne_true), hbase, if_pos (by rfl)]
    refine (reads_op (by decide) _).bind ?_
    refine Reads.bind (reads_ahead_bind ?_) (reads_pure _ _)
    exact reads_fieldOrMethod g hmethod hargs
  · simp [Code.parens, Code.op, Code.opSigns, Code.word]
    omega

/-! ## Operands -/

/-- Where no attribute and no operator comes before an operand. -/
structure BeginsBare (tokens : List Token) : Prop where
  hash : atOp "#" tokens = false
  reference : atOp "&" tokens = false
  deref : atOp "*" tokens = false
  not : atOp "!" tokens = false
  neg : atOp "-" tokens = false

theorem reads_outerAttributes_nil {tokens : List Token} (h : atOp "#" tokens = false) :
    Reads g.outerAttributes tokens [] tokens := by
  apply CollectsIn.reads
  exact .done ((reads_op?_false h).bind (reads_pure _ _))

/-- An operand is an atom with what follows it. -/
theorem reads_readOperand {struct : Bool} {base e : Expr} {tokens middle : List Token}
    (hbegins : BeginsBare tokens) (hatom : Reads (g.atom struct) tokens base middle)
    (htrails : g.Trails base middle e rest) (hraw : e.isRaw = false) :
    Reads (g.readOperand struct) tokens e rest := by
  apply reads_orRaw
  refine (reads_outerAttributes_nil g hbegins.hash).bind ?_
  have hprefixed : Reads (g.prefixed struct []) tokens e rest := by
    refine reads_ahead_bind ((reads_op?_false hbegins.reference).bind ?_)
    simp only [hbegins.deref, hbegins.not, hbegins.neg, Bool.false_eq_true, if_false]
    refine hatom.bind (htrails.reads.bind ?_)
    simp only [hraw, Bool.false_eq_true, if_false, List.isEmpty_nil, Bool.not_true, Bool.false_and]
    exact reads_pure _ _
  refine hprefixed.bind ?_
  simp only [hraw]
  exact reads_pure _ _

/-- A reference to an operand. -/
theorem reads_readOperand_reference {struct : Bool} {e : Expr} {tokens : List Token}
    (hbegins : atWord "raw" tokens = false) (hmut : atWord "mut" tokens = false)
    (h : Reads (g.operand struct) tokens e rest) :
    Reads (g.readOperand struct) (Code.op "&" ++ tokens) (.reference false e) rest := by
  apply reads_orRaw
  refine (reads_outerAttributes_nil g (by rfl)).bind ?_
  have hop : Reads (op? "&") (Code.op "&" ++ tokens) true tokens := reads_op?_true rfl
  have hprefixed : Reads (g.prefixed struct []) (Code.op "&" ++ tokens) (.reference false e)
      rest := by
    refine reads_ahead_bind (hop.bind (reads_ahead_bind ?_))
    simp only [hbegins, Bool.false_and, Bool.false_eq_true, if_false]
    refine (reads_keyword?_false hmut).bind ?_
    exact h.bind (reads_pure _ _)
  exact hprefixed.bind (reads_pure _ _)

/-! ## Operators -/

/-- With the operators after it that bind at least as tightly as `base`, `left` is the expression
`e`. -/
inductive Operates (struct : Bool) (base : Precedence) :
    (left : Expr) → (tokens : List Token) → (e : Expr) → (rest : List Token) → Prop where
  | done {left : Expr} {tokens : List Token} :
      Reads (g.operation? struct base left) tokens none tokens →
      Operates struct base left tokens left tokens
  | more {left next e : Expr} {tokens middle rest : List Token} :
      Reads (g.operation? struct base left) tokens (some next) middle →
      middle.length < tokens.length → Operates struct base next middle e rest →
      Operates struct base left tokens e rest

variable {g} in
theorem Operates.reads_operationsUpTo {struct : Bool} {base : Precedence} {left e : Expr}
    {tokens : List Token} (h : g.Operates struct base left tokens e rest) {bound : Nat}
    (hbound : tokens.length < bound) :
    Reads (g.operationsUpTo struct base bound left) tokens e rest := by
  induction h generalizing bound with
  | done hstep =>
    obtain ⟨bound, rfl⟩ := Nat.exists_eq_add_of_lt hbound
    exact hstep.bind (reads_pure _ _)
  | more hstep hlength _ ih =>
    obtain _ | bound := bound
    · omega
    · exact hstep.bind (ih (by omega))

variable {g} in
theorem Operates.reads {struct : Bool} {base : Precedence} {left e : Expr}
    {tokens : List Token} (h : g.Operates struct base left tokens e rest) :
    Reads (g.operations struct base left) tokens e rest :=
  reads_ahead_bind (h.reads_operationsUpTo (Nat.lt_succ_self _))

/-- Where no operator comes. -/
structure EndsOperators (tokens : List Token) : Prop where
  binary : binaryOp? tokens = none
  assign : atAssign tokens = false
  range : atOp ".." tokens = false
  cast : atWord "as" tokens = false

theorem Operates.ends {struct : Bool} {base : Precedence} {left : Expr} (h : EndsOperators rest) :
    g.Operates struct base left rest left rest := by
  refine .done (reads_ahead_bind ?_)
  cases hrange : left.isRange with
  | true => exact reads_pure _ _
  | false =>
    simp only [h.binary, h.assign, h.range, h.cast, Bool.and_false, Bool.false_eq_true, if_false]
    exact reads_pure _ _

/-- A whole expression is an operand with the operators after it. -/
theorem reads_readExpr {struct : Bool} {left e : Expr} {tokens middle : List Token}
    (hleft : Reads (g.readOperand struct) tokens left middle)
    (hoperates : g.Operates struct .lowest left middle e rest) :
    Reads (g.readExpr struct) tokens e rest :=
  hleft.bind hoperates.reads

/-- A cast binds tighter than any operator. -/
theorem Operates.cast {struct : Bool} {base : Precedence} {left e : Expr} {type : Ty}
    {tokens middle : List Token} (hleft : left.isRange = false)
    (htype : Reads (g.type false) (tokens ++ middle) type middle)
    (hafter : afterCast? middle = none)
    (h : g.Operates struct base (.cast left type) middle e rest) :
    g.Operates struct base left (Code.word "as" ++ tokens ++ middle) e rest := by
  refine .more (reads_ahead_bind ?_) ?_ h
  · have hbinary : binaryOp? (Code.word "as" ++ tokens ++ middle) = none := rfl
    have hassign : atAssign (Code.word "as" ++ tokens ++ middle) = false := rfl
    have hrange : atOp ".." (Code.word "as" ++ tokens ++ middle) = false := rfl
    have hcast : atWord "as" (Code.word "as" ++ tokens ++ middle) = true := rfl
    have hrank : base.rank ≤ Precedence.cast.rank := by cases base <;> decide
    simp only [hleft, hbinary, hassign, hrange, hcast, hrank, Bool.and_false, Bool.false_eq_true,
      if_false, decide_true, Bool.and_true, if_true]
    refine (reads_keyword "as" (tokens ++ middle)).bind (htype.bind (reads_ahead_bind ?_))
    simp only [hafter]
    exact reads_pure _ _
  · simp +arith [Code.word]

/-! ## Blocks -/

theorem reads_attributedBlock {content : List Token} {stmts : List Stmt}
    (hcontent : atOp "#" content = false) (h : Reads g.stmts content stmts []) :
    Reads g.attributedBlock (Code.braces content ++ rest) (.block .nil (.ofList stmts)) rest := by
  have hinner : Reads g.innerAttributes content [] content := by
    apply CollectsIn.reads
    refine .done (reads_ahead_bind ?_)
    simp only [hcontent]
    exact reads_pure _ _
  exact reads_inside (hinner.bind (h.bind (reads_pure _ _)))

theorem reads_atom_block {struct : Bool} {content : List Token} {stmts : List Stmt}
    (hcontent : atOp "#" content = false) (h : Reads g.stmts content stmts []) :
    Reads (g.atom struct) (Code.braces content ++ rest)
      (.blockExpr none (.block .nil (.ofList stmts))) rest := by
  have hblock : Reads (do return Tree.blockExpr none (← g.attributedBlock))
      (Code.braces content ++ rest) (.blockExpr none (.block .nil (.ofList stmts))) rest :=
    (reads_attributedBlock g hcontent h).bind (reads_pure _ _)
  exact .of_opens [] (fun _ _ => by exact rfl) hblock

theorem reads_atom_unsafe {struct : Bool} {content : List Token} {stmts : List Stmt}
    (hcontent : atOp "#" content = false) (h : Reads g.stmts content stmts []) :
    Reads (g.atom struct) (Code.word "unsafe" ++ Code.braces content ++ rest)
      (.unsafeBlock (.block .nil (.ofList stmts))) rest := by
  have hblock : Reads (do return Tree.unsafeBlock (← g.attributedBlock))
      (Code.braces content ++ rest) (.unsafeBlock (.block .nil (.ofList stmts))) rest :=
    (reads_attributedBlock g hcontent h).bind (reads_pure _ _)
  exact .of_opens (Code.word "unsafe") (fun _ _ => by exact rfl) hblock

/-! ## Patterns -/

/-- Where a name as a pattern is at its end. -/
structure EndsNamePat (tokens : List Token) : Prop where
  colons : atOp "::" tokens = false
  bang : atOp "!" tokens = false
  brace : atGroup .brace tokens = false
  parenthesis : atGroup .parenthesis tokens = false
  dots : atOp ".." tokens = false
  bind : atOp "@" tokens = false

/-- A name as a pattern is a variable. -/
theorem reads_readPat_name {text : String} (htext : isName text = true) (hrest : EndsNamePat rest) :
    Reads g.readPat (.word text :: rest) (.identPat false false text .absent) rest := by
  have hword : ∀ k ∈ keywords, atWord k (.word text :: rest) = false :=
    fun k hk => atWord_word_of_isName htext hk
  have hname : atName (.word text :: rest) = true := htext
  have hskip : skip (.word text :: rest) = rest := rfl
  have hcolons : atOp "::" (.word text :: rest) = false := rfl
  have hangle : atOp "<" (.word text :: rest) = false := rfl
  have hminus : atOp "-" (.word text :: rest) = false := rfl
  have hliteral : atLiteral (.word text :: rest) = false := by
    have htrue := hword "true" (by decide)
    have hfalse := hword "false" (by decide)
    simp only [atWord] at htrue hfalse
    simp only [atLiteral, htrue, hfalse, Bool.or_self]
  have hident : Reads g.identPat (.word text :: rest)
      (.identPat false false text .absent) rest := by
    refine (reads_keyword?_false (hword "ref" (by decide))).bind ?_
    refine (reads_keyword?_false (hword "mut" (by decide))).bind (reads_ahead_bind ?_)
    simp only [hword "self" (by decide), Bool.false_eq_true, if_false]
    refine (reads_name htext _).bind ((reads_op?_false hrest.bind).bind ?_)
    exact (reads_pure _ _).bind (reads_pure _ _)
  unfold readPat
  refine reads_ahead_bind ?_
  simp only [hname, hskip, hrest.colons, hrest.bang, hrest.brace, hrest.parenthesis, hrest.dots,
    hword "self" (by decide), hword "Self" (by decide), hword "super" (by decide),
    hword "crate" (by decide), hcolons, hangle, Bool.or_self,
    Bool.and_false, Bool.false_eq_true, if_false]
  refine (reads_keyword?_false (hword "_" (by decide))).bind ?_
  simp only [hword "box" (by decide), hminus, hliteral, hword "const" (by decide),
    Bool.or_true, Bool.or_self, Bool.false_eq_true, if_false, if_true]
  exact hident

theorem reads_forParams?_absent {tokens : List Token} (h : atWord "for" tokens = false) :
    Reads g.forParams? tokens .absent tokens :=
  (reads_keyword?_false h).bind (reads_pure _ _)

/-- A closure of one variable whose body is a block. -/
theorem reads_atom_closure {struct : Bool} {name : String} {body : Expr} {tokens : List Token}
    (hpat : Reads g.pat (.word name :: (Code.op "|" ++ tokens))
      (.identPat false false name .absent) (Code.op "|" ++ tokens))
    (hbody : Reads (g.expr struct) tokens body rest) (harrow : atOp "->" tokens = false) :
    Reads (g.atom struct) (Code.op "|" ++ Code.word name ++ Code.op "|" ++ tokens)
      (.closure .absent false false false false
        (.cons (.identPat false false name .absent) .nil) .absent body) rest := by
  have hparam : Reads g.closureParam (.word name :: (Code.op "|" ++ tokens))
      (.identPat false false name .absent) (Code.op "|" ++ tokens) := by
    obtain ⟨attrsWritten, hattrs⟩ := reads_capture (reads_outerAttributes_nil g
      (show atOp "#" (.word name :: (Code.op "|" ++ tokens)) = false from rfl))
    obtain ⟨patWritten, hpat⟩ := reads_capture hpat
    refine hattrs.bind (hpat.bind (reads_ahead_bind ?_))
    have htyped : atOp ":" (Code.op "|" ++ tokens) = false := rfl
    simp only [htyped, Bool.false_or, Tree.isRawPat, Bool.not_false, if_true, Bool.false_eq_true,
      if_false, List.isEmpty_nil]
    exact (reads_write _).bind ((reads_write _).bind (reads_pure _ _))
  have hparams : CollectsIn (do
      if atOp "|" (← ahead) then return none
      let param ← g.closureParam
      if !atOp "|" (← ahead) then op ","
      return some param) (.word name :: (Code.op "|" ++ tokens))
      [.identPat false false name .absent] (Code.op "|" ++ tokens) := by
    refine .more (reads_ahead_bind ?_) (by simp) (.done (reads_ahead_bind ?_))
    · rw [if_neg (by exact Bool.false_ne_true)]
      refine hparam.bind (reads_ahead_bind ?_)
      rw [if_neg (by exact Bool.false_ne_true)]
      exact reads_pure _ _
    · rw [if_pos (by rfl)]
      exact reads_pure _ _
  have hclosure : Reads (g.closure struct)
      (Code.op "|" ++ (.word name :: (Code.op "|" ++ tokens)))
      (.closure .absent false false false false
        (.cons (.identPat false false name .absent) .nil) .absent body) rest := by
    refine (reads_forParams?_absent g rfl).bind ?_
    refine (reads_keyword?_false rfl).bind ?_
    refine (reads_keyword?_false rfl).bind ?_
    refine (reads_keyword?_false rfl).bind ?_
    refine (reads_keyword?_false rfl).bind ?_
    refine (reads_op (by decide) _).bind (hparams.reads.bind ?_)
    refine (reads_op (by decide) _).bind ((reads_op?_false harrow).bind ?_)
    exact hbody.bind (reads_pure _ _)
  exact .of_opens [] (fun _ _ => by exact rfl) hclosure

end Grammar
end ForeignWrap.Syntax
