import ForeignWrap.Proofs.Syntax.Operand

/-!
# Statements as code

Code that the methods are put together from is read as the statements that it says.

## Main definitions

* `ForeignWrap.Syntax.Grammar.BeginsExprStmt`: where an expression as a statement begins.
* `ForeignWrap.Syntax.IsStmt`: code of a statement.
* `ForeignWrap.Syntax.reads_stmts`: the statements of a block.
-/

namespace ForeignWrap.Syntax

open Code (Delimiter Token)
open Syntax.Parser

theorem Tree.attributeFirst_nil {c : SyntaxClass} (tree : Tree c) :
    tree.attributeFirst [] = tree := by
  fun_induction Tree.attributeFirst [] tree with
  | case1 left right ih => rw [ih]
  | case2 operator left right ih => rw [ih]
  | case3 expr type ih => rw [ih]
  | case4 expr => rfl
  | case5 c tree => rfl

/-! ## Macros -/

theorem fails_namePath {tokens : List Token} (hcolons : atOp "::" tokens = false)
    (hpath : atPathName tokens = false) : Fails namePath tokens := by
  have hname : atName tokens = false := by
    simp only [atPathName, Bool.or_eq_false_iff] at hpath
    exact hpath.1.1.1.1
  refine (reads_op?_false hcolons).fails_bind ?_
  refine (show Reads ahead tokens tokens tokens from ⟨[], fun _ _ => rfl⟩).fails_bind ?_
  simp only [hpath, Bool.not_false, if_true]
  exact (fails_name hname).bind _

namespace Grammar

variable (g : Grammar) {rest : List Token}

theorem reads_namePath {rooted : Bool} {first : String} {more : List String}
    (hfirst : IsPathWord first) (hmore : ∀ text ∈ more, IsPathWord text)
    (hrest : atOp "::" rest = false) :
    Reads namePath (wordPathCode rooted first more ++ rest) ⟨rooted, first :: more⟩ rest := by
  have hcollects : CollectsIn (do
      if !(← op? "::") then return none
      if atPathName (← ahead) then return some (← anyWord)
      expected ["path segment after " ++ code "::"]) (partsCode more ++ rest) more rest := by
    induction more with
    | nil => exact .done ((reads_op?_false hrest).bind (reads_pure _ _))
    | cons text more ih =>
      obtain ⟨htext, hmore⟩ := List.forall_mem_cons.1 hmore
      have hop : Reads (op? "::") (partsCode (text :: more) ++ rest) true
          (.word text :: (partsCode more ++ rest)) := reads_op?_true rfl
      refine .more (hop.bind (reads_ahead_bind ?_)) ?_ (ih hmore)
      · rw [if_pos (atPathName_word htext)]
        exact (reads_anyWord _ _).bind (reads_pure _ _)
      · simp [partsCode, Code.op, Code.opSigns, Code.word]
        omega
  refine (reads_rooted rooted first more rest).bind (reads_ahead_bind ?_)
  rw [atPathName_word hfirst]
  exact (reads_anyWord _ _).bind (hcollects.reads.bind (reads_pure _ _))

/-- Where no macro is used: no path of names comes next, or no exclamation mark after it. -/
def AtNoMacro (tokens : List Token) : Prop :=
  Fails namePath tokens ∨
    ∃ path rest, Reads namePath tokens path rest ∧ atOp "!" rest = false

/-- There an attempt at the path of a macro ends in what no macro gives. -/
theorem AtNoMacro.reads_attempt_bind {tokens : List Token} {α : Type} {b : α}
    {next : Option (NamePath × Input) → Parser α} (h : AtNoMacro tokens)
    (hnone : next none = pure b)
    (hsome : ∀ path input, atOp "!" input.rest = false → next (some (path, input)) = pure b) :
    Reads (attempt namePath >>= next) tokens b tokens := by
  obtain hfails | ⟨path, after, ⟨written, hreads⟩, hbang⟩ := h
  · refine (reads_attempt_none hfails).bind ?_
    rw [hnone]
    exact reads_pure _ _
  · refine ⟨[], fun taken leftover => ?_⟩
    have hattempt := attempt_eq namePath ⟨tokens, taken, leftover⟩
    rw [hreads] at hattempt
    refine bind_eq_ok_iff.2 ⟨_, hattempt, ?_⟩
    have hnext := hsome path ⟨after, written.reverse ++ taken, leftover⟩ hbang
    exact congrFun hnext _

theorem reads_macroStmt?_none {attrs : List Attribute} {tokens : List Token}
    (h : AtNoMacro tokens) : Reads (macroStmt? attrs) tokens none tokens :=
  h.reads_attempt_bind rfl fun path input hbang => by simp [hbang]

theorem reads_atNamedMacro_false {tokens : List Token} (h : AtNoMacro tokens) :
    Reads atNamedMacro tokens false tokens :=
  h.reads_attempt_bind rfl fun path input hbang => by simp [hbang]

theorem atNoMacro_wordPath {rooted : Bool} {first : String} {more : List String}
    (hfirst : IsPathWord first) (hmore : ∀ text ∈ more, IsPathWord text)
    (hcolons : atOp "::" rest = false) (hbang : atOp "!" rest = false) :
    AtNoMacro (wordPathCode rooted first more ++ rest) :=
  .inr ⟨_, _, reads_namePath hfirst hmore hcolons, hbang⟩

/-! ## Statements -/

/-- A statement that begins with a keyword that no path begins with. -/
theorem reads_stmt_of_let {tokens : List Token} {s : Stmt}
    (h : Reads (g.letStmt []) (Code.word "let" ++ tokens) s rest) :
    Reads g.stmt (Code.word "let" ++ tokens) s rest := by
  apply reads_orRaw
  refine (reads_outerAttributes_nil g rfl).bind ?_
  refine (reads_macroStmt?_none (.inl (fails_namePath rfl rfl))).bind (reads_ahead_bind ?_)
  rw [if_pos (by rfl)]
  exact h.map some

/-- The value of a `let`, after its pattern. -/
def letValue (pat : Pat) : Parser Stmt := do
  if !(← op? "=") then
    op ";"
    return .letStmt .nil pat .absent .absent
  let init ← g.expr true
  let diverge ←
    if !init.endsWithBrace && (← keyword? "else") then some <$> block g else pure none
  op ";"
  return .letStmt .nil pat (.present init) (.ofOption diverge)

theorem reads_letValue {pat : Pat} {value : List Token} {e : Expr}
    (hvalue : Reads (g.expr true) (value ++ (Code.op ";" ++ rest)) e (Code.op ";" ++ rest)) :
    Reads (g.letValue pat) (Code.op "=" ++ (value ++ (Code.op ";" ++ rest)))
      (.letStmt .nil pat (.present e) .absent) rest := by
  have hop : Reads (op? "=") (Code.op "=" ++ (value ++ (Code.op ";" ++ rest))) true
      (value ++ (Code.op ";" ++ rest)) := reads_op?_true rfl
  refine hop.bind (hvalue.bind ((reads_keyword?_false rfl).bind ?_))
  simp only [Bool.and_false, Bool.false_eq_true, if_false]
  refine (reads_pure _ _).bind ((reads_op (by decide) _).bind (reads_pure _ _))

/-- A `let` that names a value. -/
theorem reads_stmt_let {pat : Pat} {name value : List Token} {e : Expr}
    (hpat : Reads g.pat (name ++ (Code.op "=" ++ (value ++ (Code.op ";" ++ rest)))) pat
      (Code.op "=" ++ (value ++ (Code.op ";" ++ rest))))
    (hvalue : Reads (g.expr true) (value ++ (Code.op ";" ++ rest)) e (Code.op ";" ++ rest)) :
    Reads g.stmt (letCode name value ++ rest) (.letStmt .nil pat (.present e) .absent) rest := by
  simp only [letCode, List.append_assoc]
  apply reads_stmt_of_let
  refine (reads_keyword _ _).bind (hpat.bind ?_)
  refine (reads_op?_false rfl).bind ?_
  simp only [Bool.false_eq_true, if_false]
  exact (reads_pure _ _).bind (reads_letValue g hvalue)

/-- A `let` that names a value of a type. -/
theorem reads_stmt_let_typed {pat : Pat} {name typeCode value : List Token} {type : Ty} {e : Expr}
    (hpat : Reads g.pat (name ++ (Code.op ":" ++ (typeCode ++
      (Code.op "=" ++ (value ++ (Code.op ";" ++ rest)))))) pat
      (Code.op ":" ++ (typeCode ++ (Code.op "=" ++ (value ++ (Code.op ";" ++ rest))))))
    (htype : Reads (g.type true)
      (typeCode ++ (Code.op "=" ++ (value ++ (Code.op ";" ++ rest)))) type
      (Code.op "=" ++ (value ++ (Code.op ";" ++ rest))))
    (hvalue : Reads (g.expr true) (value ++ (Code.op ";" ++ rest)) e (Code.op ";" ++ rest)) :
    Reads g.stmt (letCode (name ++ Code.op ":" ++ typeCode) value ++ rest)
      (.letStmt .nil (.typedPat .nil pat type) (.present e) .absent) rest := by
  simp only [letCode, List.append_assoc]
  apply reads_stmt_of_let
  have hop : Reads (op? ":") (Code.op ":" ++ (typeCode ++
      (Code.op "=" ++ (value ++ (Code.op ";" ++ rest))))) true
      (typeCode ++ (Code.op "=" ++ (value ++ (Code.op ";" ++ rest)))) := reads_op?_true rfl
  refine (reads_keyword _ _).bind (hpat.bind (hop.bind ?_))
  simp only [if_true]
  exact (htype.map _).bind (reads_letValue g hvalue)

/-! ## Expressions as statements -/

/-- An expression that uses no macro at its top. -/
def IsNoMacro (e : Expr) : Prop :=
  (∀ call, e ≠ .macroExpr call) ∧ ∀ attrs call, e ≠ .attributed attrs (.macroExpr call)

/-- Where no expression that is like a block begins. -/
structure BeginsOpen (tokens : List Token) : Prop where
  word : ∀ k ∈ ["if", "while", "for", "loop", "match", "try", "unsafe", "const"],
    atWord k tokens = false
  brace : atGroup .brace tokens = false
  lifetime : atLifetime tokens = false
  hash : atOp "#" tokens = false

theorem reads_readLeading {left e : Expr} {tokens middle : List Token} (hbegins : BeginsOpen tokens)
    (hleft : Reads (g.readOperand true) tokens left middle)
    (hoperates : g.Operates true .lowest left middle e rest) :
    Reads g.readLeading tokens e rest := by
  refine (reads_outerAttributes_nil g hbegins.hash).bind (reads_ahead_bind ?_)
  simp only [hbegins.word _ (by simp : "if" ∈ _), hbegins.word _ (by simp : "while" ∈ _),
    hbegins.word _ (by simp : "for" ∈ _), hbegins.word _ (by simp : "loop" ∈ _),
    hbegins.word _ (by simp : "match" ∈ _), hbegins.word _ (by simp : "try" ∈ _),
    hbegins.word _ (by simp : "unsafe" ∈ _), hbegins.word _ (by simp : "const" ∈ _),
    hbegins.brace, hbegins.lifetime, Bool.false_and, Bool.false_eq_true, if_false]
  exact hleft.bind hoperates.reads

theorem reads_exprStmt {e : Expr} {semicolon : Bool} {tokens middle : List Token}
    (hplain : IsNoMacro e) (h : Reads g.readLeading tokens e middle)
    (hsemicolon : Reads (op? ";") middle semicolon rest) :
    Reads (g.exprStmt []) tokens (.exprStmt e semicolon) rest := by
  refine h.bind ?_
  rw [Tree.attributeFirst_nil]
  refine hsemicolon.bind ?_
  dsimp only
  split
  case h_1 call _ heq =>
    split at heq
    case h_1 => exact absurd rfl (hplain.1 _)
    case h_2 => exact absurd rfl (hplain.2 _ _)
    case h_3 => cases heq
  case h_2 => exact reads_pure _ _

/-- An item begins with a keyword, or with a word before another word. -/
theorem atItem_word {text : String} {tokens : List Token} (htext : IsPathWord text)
    (hword : atAnyWord tokens = false) (hcrate : text = "crate" → atOp "::" tokens = true) :
    atItem (.word text :: tokens) = false := by
  have hkeyword : ∀ k ∈ keywords, k ∉ pathKeywords → atWord k (.word text :: tokens) = false :=
    fun _ => atWord_word_of_isPathWord htext
  have hskip : skip (.word text :: tokens) = tokens := rfl
  have hnext : ∀ k, atWord k tokens = false := by
    intro k
    cases tokens with
    | nil => rfl
    | cons t _ => cases t <;> first | rfl | cases hword
  have hname : atName tokens = false := by
    cases tokens with
    | nil => rfl
    | cons t _ => cases t <;> first | rfl | cases hword
  have hcrate' : (atWord "crate" (.word text :: tokens) && !atOp "::" tokens) = false := by
    by_cases h : text = "crate"
    · simp [hcrate h]
    · simp [atWord, h]
  have hany : (["fn", "mod", "type", "struct", "enum", "trait", "impl", "macro"].any
      (atWord · (.word text :: tokens))) = false := by
    rw [List.any_eq_false]
    intro k hk
    rw [hkeyword k (by revert k; decide) (by revert k; decide)]
    exact Bool.false_ne_true
  have hpub := hkeyword "pub" (by decide) (by decide)
  have hextern := hkeyword "extern" (by decide) (by decide)
  have huse := hkeyword "use" (by decide) (by decide)
  have hstatic := hkeyword "static" (by decide) (by decide)
  have hconst := hkeyword "const" (by decide) (by decide)
  have hunsafe := hkeyword "unsafe" (by decide) (by decide)
  have hasync := hkeyword "async" (by decide) (by decide)
  simp only [atItem, hskip, hcrate', hany, hpub, hextern, huse, hstatic, hconst, hunsafe, hasync,
    hnext, hname, Bool.false_and, Bool.and_false, Bool.or_self]

theorem atItem_wordPath {rooted : Bool} {first : String} {more : List String}
    (hfirst : IsPathWord first) (hword : atAnyWord rest = false)
    (hcrate : more = [] → first ≠ "crate") :
    atItem (wordPathCode rooted first more ++ rest) = false := by
  cases rooted with
  | true => rfl
  | false =>
    cases more with
    | nil => exact atItem_word hfirst hword fun h => absurd h (hcrate rfl)
    | cons _ _ => exact atItem_word hfirst rfl fun _ => rfl

/-- What begins neither a macro nor a `let` nor an item is an expression. -/
theorem reads_stmt_of_exprStmt {tokens : List Token} {s : Stmt} (hhash : atOp "#" tokens = false)
    (hplain : AtNoMacro tokens) (hlet : atWord "let" tokens = false)
    (hitem : atItem tokens = false) (h : Reads (g.exprStmt []) tokens s rest) :
    Reads g.stmt tokens s rest := by
  apply reads_orRaw
  refine (reads_outerAttributes_nil g hhash).bind ?_
  refine (reads_macroStmt?_none hplain).bind (reads_ahead_bind ?_)
  simp only [hlet, hitem, Bool.false_eq_true, if_false]
  refine (reads_atNamedMacro_false hplain).bind ?_
  simp only [Bool.or_self, Bool.false_eq_true, if_false]
  exact h.map some

/-- Where an expression as a statement begins: neither a macro nor a `let`, an item or a block. -/
structure BeginsExprStmt (tokens : List Token) : Prop where
  noMacro : AtNoMacro tokens
  letWord : atWord "let" tokens = false
  item : atItem tokens = false
  semicolon : atOp ";" tokens = false
  opens : BeginsOpen tokens

theorem beginsOpen_wordPath {rooted : Bool} {first : String} {more : List String}
    (hfirst : IsPathWord first) : BeginsOpen (wordPathCode rooted first more ++ rest) := by
  cases rooted with
  | true =>
    constructor
    case word => exact fun _ _ => rfl
    all_goals rfl
  | false =>
    constructor
    case word =>
      intro k hk
      exact atWord_word_of_isPathWord hfirst (by revert k; decide) (by revert k; decide)
    all_goals rfl

theorem beginsExprStmt_wordPath (rooted : Bool) (first : String) (more : List String)
    (hfirst : IsPathWord first) (hmore : ∀ text ∈ more, IsPathWord text)
    (hcolons : atOp "::" rest = false) (hbang : atOp "!" rest = false)
    (hword : atAnyWord rest = false) (hcrate : more = [] → first ≠ "crate") :
    BeginsExprStmt (wordPathCode rooted first more ++ rest) where
  noMacro := atNoMacro_wordPath hfirst hmore hcolons hbang
  letWord := by
    cases rooted with
    | true => rfl
    | false => exact atWord_word_of_isPathWord hfirst (by decide) (by decide)
  item := atItem_wordPath hfirst hword hcrate
  semicolon := by cases rooted <;> rfl
  opens := beginsOpen_wordPath hfirst

theorem beginsExprStmt_angle (tokens : List Token) : BeginsExprStmt (Code.op "<" ++ tokens) where
  noMacro := .inl (fails_namePath rfl rfl)
  letWord := rfl
  item := rfl
  semicolon := rfl
  opens := ⟨fun _ _ => rfl, rfl, rfl, rfl⟩

/-- An operand with the operators after it as a statement. -/
theorem reads_stmt_expr {left e : Expr} {semicolon : Bool} {tokens middle after : List Token}
    (hbegins : BeginsExprStmt tokens) (hleft : Reads (g.readOperand true) tokens left middle)
    (hoperates : g.Operates true .lowest left middle e after) (hplain : IsNoMacro e)
    (hsemicolon : Reads (op? ";") after semicolon rest) :
    Reads g.stmt tokens (.exprStmt e semicolon) rest :=
  reads_stmt_of_exprStmt g hbegins.opens.hash hbegins.noMacro hbegins.letWord hbegins.item
    (reads_exprStmt g hplain (reads_readLeading g hbegins.opens hleft hoperates) hsemicolon)

/-! ## Blocks of statements -/

/-- One of the statements of a block. -/
def stmtOrEmpty : Parser Stmt := do
  if ← op? ";" then return .emptyStmt
  let stmt ← stmt g
  if stmt.needsSemicolon && !(← atEnd) then
    broken ("unexpected token, expected " ++ code ";")
  return stmt

theorem readStmts_eq_untilEnd : g.readStmts = untilEnd g.stmtOrEmpty :=
  rfl

theorem reads_stmtOrEmpty {tokens : List Token} {s : Stmt} (hbegins : atOp ";" tokens = false)
    (h : Reads g.stmt tokens s rest) (hends : s.needsSemicolon = true → rest = []) :
    Reads g.stmtOrEmpty tokens s rest := by
  refine (reads_op?_false hbegins).bind ?_
  refine h.bind ?_
  cases hneeds : s.needsSemicolon with
  | false =>
    simp only [Bool.false_and, Bool.false_eq_true, if_false]
    exact (reads_pure _ _).bind (reads_pure _ _)
  | true =>
    obtain rfl := hends hneeds
    refine (reads_atEnd []).bind ?_
    exact reads_pure _ _

end Grammar

/-! ## Statements at a depth -/

/-- To the depth `depth` and deeper, the code is read as the statement `s`, whatever follows it. -/
def IsStmt (depth : Nat) (code : List Token) (s : Stmt) : Prop :=
  code ≠ [] ∧ ∀ d, depth ≤ d → ∀ rest,
    Reads (Grammar.atDepth d).stmtOrEmpty (code ++ rest) s rest

theorem IsStmt.mono {depth depth' : Nat} {code : List Token} {s : Stmt}
    (h : IsStmt depth code s) (hdepth : depth ≤ depth') : IsStmt depth' code s :=
  ⟨h.1, fun d hd => h.2 d (Nat.le_trans hdepth hd)⟩

/-- The variable that a name stands for in a pattern. -/
def namePat (name : String) : Pat :=
  .identPat false false name .absent

/-- A statement that names the value of an expression. -/
def letNameStmt (name : String) (e : Expr) : Stmt :=
  .letStmt .nil (namePat name) (.present e) .absent

theorem reads_pat_name {d : Nat} {name : String} {rest : List Token} (hd : 1 ≤ d)
    (hname : isName name = true) (hrest : Grammar.EndsNamePat rest) :
    Reads (Grammar.atDepth d).pat (Code.word name ++ rest) (namePat name) rest := by
  obtain _ | d := d
  · cases hd
  · exact Grammar.reads_readPat_name _ hname hrest

theorem isStmt_let {depth : Nat} (name : String) {value : List Token} {e : Expr}
    (hname : isName name = true) (hvalue : IsExpr depth value e) :
    IsStmt (depth + 1) (letCode (Code.word name) value) (letNameStmt name e) := by
  refine ⟨by simp [letCode, Code.word], fun d hd rest => ?_⟩
  refine Grammar.reads_stmtOrEmpty _ rfl ?_ (by simp [letNameStmt, Tree.needsSemicolon])
  refine Grammar.reads_stmt_let _ (reads_pat_name (by omega) hname ?_)
    (hvalue d (by omega) .semicolon)
  constructor <;> rfl

/-- An expression with a semicolon after it is a statement. -/
theorem isStmt_operand {depth : Nat} {code : List Token} {e : Expr} (h : IsOperand depth code e)
    (hbegins : ∀ rest, Grammar.BeginsExprStmt (code ++ (Code.op ";" ++ rest)))
    (hraw : e.isRaw = false) (hplain : Grammar.IsNoMacro e) :
    IsStmt depth (code ++ Code.op ";") (.exprStmt e true) := by
  refine ⟨by simp [Code.op, Code.opSigns], fun d hd rest => ?_⟩
  rw [List.append_assoc]
  have hends : EndsExpr true (Code.op ";" ++ rest) := .semicolon
  refine Grammar.reads_stmtOrEmpty _ (hbegins rest).semicolon ?_ (by simp [Tree.needsSemicolon])
  refine Grammar.reads_stmt_expr _ (hbegins rest)
    (h d hd hends.endsPathExpr (.ends _ hends.endsTrailers) hraw)
    (.ends _ hends.endsOperators) hplain (reads_op?_true rfl)

/-- An operand is the last statement of a block. -/
theorem IsOperand.reads_last {depth d : Nat} {code : List Token} {e : Expr}
    (h : IsOperand depth code e) (hd : depth ≤ d) (hbegins : Grammar.BeginsExprStmt code)
    (hraw : e.isRaw = false) (hplain : Grammar.IsNoMacro e) :
    Reads (Grammar.atDepth d).stmtOrEmpty code (.exprStmt e false) [] := by
  have hends : EndsExpr true [] := .none
  have hleft := h d hd hends.endsPathExpr (.ends _ hends.endsTrailers) hraw
  rw [List.append_nil] at hleft
  refine Grammar.reads_stmtOrEmpty _ hbegins.semicolon ?_ fun _ => rfl
  exact Grammar.reads_stmt_expr _ hbegins hleft (.ends _ hends.endsOperators) hplain
    (reads_op?_false rfl)

/-- The statements of a block are read one after another. -/
theorem collectsIn_stmts {depth d : Nat} (hd : depth ≤ d) {codes : List (List Token)}
    {stmts more : List Stmt} {tokens rest : List Token}
    (h : List.Forall₂ (IsStmt depth) codes stmts)
    (hmore : CollectsIn (endStep (Grammar.atDepth d).stmtOrEmpty) tokens more rest) :
    CollectsIn (endStep (Grammar.atDepth d).stmtOrEmpty) (codes.flatten ++ tokens) (stmts ++ more)
      rest := by
  induction h with
  | nil => exact hmore
  | @cons code s codes stmts hcode _ ih =>
    rw [List.flatten_cons, List.append_assoc]
    refine .more (reads_endStep ?_ (hcode.2 d hd _)) ?_ ih
    · simp [hcode.1]
    · simpa using List.length_pos_of_ne_nil hcode.1

/-- A block is read from its statements and the expression at its end. -/
theorem reads_stmts {depth d : Nat} (hd : depth ≤ d) {codes : List (List Token)}
    {stmts : List Stmt} {last : List Token} {s : Stmt} (h : List.Forall₂ (IsStmt depth) codes stmts)
    (hne : last ≠ []) (hlast : Reads (Grammar.atDepth d).stmtOrEmpty last s []) :
    Reads (Grammar.atDepth (d + 1)).stmts (codes.flatten ++ last) (stmts ++ [s]) [] :=
  reads_untilEnd (collectsIn_stmts hd h
    (.more (reads_endStep hne hlast) (List.length_pos_of_ne_nil hne)
      (.done (reads_endStep_none _))))

/-! ## Blocks as expressions -/

/-- A block of statements. -/
def stmtsBlock (stmts : List Stmt) : Tree .block :=
  .block .nil (.ofList stmts)

/-- An atom after which nothing follows is an expression. -/
theorem isExpr_of_atom {depth : Nat} {code : List Token} {e : Expr}
    (hbegins : ∀ rest, Grammar.BeginsBare (code ++ rest)) (hraw : e.isRaw = false)
    (hatom : ∀ d, depth ≤ d → ∀ {struct rest}, EndsExpr struct rest →
      Reads ((Grammar.atDepth d).atom struct) (code ++ rest) e rest) :
    IsExpr (depth + 1) code e := by
  intro d hd struct rest hrest
  obtain _ | d := d
  · cases hd
  refine Grammar.reads_readExpr _ ?_ (.ends _ hrest.endsOperators)
  exact Grammar.reads_readOperand _ (hbegins rest) (hatom d (Nat.le_of_succ_le_succ hd) hrest)
    (.ends _ hrest.endsTrailers) hraw

theorem isExpr_block {depth : Nat} {content : List Token} {stmts : List Stmt}
    (hcontent : atOp "#" content = false)
    (h : ∀ d, depth ≤ d → Reads (Grammar.atDepth d).stmts content stmts []) :
    IsExpr (depth + 1) (Code.braces content) (.blockExpr none (stmtsBlock stmts)) := by
  refine isExpr_of_atom (fun _ => ?_) rfl fun d hd _ _ _ =>
    Grammar.reads_atom_block _ hcontent (h d hd)
  constructor <;> rfl

theorem isExpr_unsafe {depth : Nat} {content : List Token} {stmts : List Stmt}
    (hcontent : atOp "#" content = false)
    (h : ∀ d, depth ≤ d → Reads (Grammar.atDepth d).stmts content stmts []) :
    IsExpr (depth + 1) (Code.word "unsafe" ++ Code.braces content)
      (.unsafeBlock (stmtsBlock stmts)) := by
  refine isExpr_of_atom (fun _ => ?_) rfl fun d hd _ _ _ =>
    Grammar.reads_atom_unsafe _ hcontent (h d hd)
  constructor <;> rfl

/-- The closure of one variable. -/
def closureExpr (name : String) (body : Expr) : Expr :=
  .closure .absent false false false false (.cons (namePat name) .nil) .absent body

theorem isExpr_closure {depth : Nat} {name : String} {body : List Token} {e : Expr}
    (hdepth : 1 ≤ depth) (hname : isName name = true)
    (harrow : ∀ rest, atOp "->" (body ++ rest) = false)
    (hbody : IsExpr depth body e) :
    IsExpr (depth + 1) (Code.op "|" ++ Code.word name ++ Code.op "|" ++ body)
      (closureExpr name e) := by
  refine isExpr_of_atom (fun _ => ?_) rfl fun d hd _ rest hrest => ?_
  · constructor <;> rfl
  · rw [List.append_assoc]
    refine Grammar.reads_atom_closure _ (reads_pat_name (by omega) hname ?_) (hbody d hd hrest)
      (harrow rest)
    constructor <;> rfl

end ForeignWrap.Syntax
