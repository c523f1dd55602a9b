import ForeignWrap.Proofs.Syntax.Operand

/-!
# Types as code

A type is read from its code wherever a type may stand, if nothing of what follows it is taken for a
part of it. Each kind of type is opened up once here.

## Main definitions

* `ForeignWrap.Syntax.IsType`: code that is read as a type.
* `ForeignWrap.Syntax.Grammar.angledCode`: pieces of code between angle brackets.

## Main statements

* `ForeignWrap.Syntax.Grammar.reads_angledPath`: a path with arguments.
* `ForeignWrap.Syntax.Grammar.reads_enclosed`: the types of a tuple.
-/

namespace ForeignWrap.Syntax

open Code (Delimiter Token)
open Syntax.Parser
open Grammar (wordPath wordPathCode partsCode)

/-- Where a type is at its end. -/
inductive EndsType : List Token → Prop where
  | none : EndsType []
  | comma {joint : Bool} {more : List Token} : EndsType (.sign ',' joint :: more)
  | semicolon {joint : Bool} {more : List Token} : EndsType (.sign ';' joint :: more)
  | equals {joint : Bool} {more : List Token} : EndsType (.sign '=' joint :: more)
  | angle {joint : Bool} {more : List Token} : EndsType (.sign '>' joint :: more)
  | block {content more : List Token} : EndsType (.group .brace content :: more)

theorem EndsType.of_endsExpr {struct : Bool} {rest : List Token} (h : EndsExpr struct rest) :
    EndsType rest := by
  cases h with
  | none => exact .none
  | comma => exact .comma
  | semicolon => exact .semicolon
  | block _ => exact .block

theorem EndsType.endsPath {inExpr : Bool} {rest : List Token} (h : EndsType rest) :
    EndsPath inExpr rest := by
  cases h <;> constructor <;> intros <;> rfl

theorem EndsType.atOp_number {rest : List Token} (h : EndsType rest) : atOp "#" rest = false := by
  cases h <;> rfl

theorem EndsType.atOp_bang {rest : List Token} (h : EndsType rest) : atOp "!" rest = false := by
  cases h <;> rfl

theorem EndsType.atOp_colons {rest : List Token} (h : EndsType rest) : atOp "::" rest = false := by
  cases h <;> rfl

theorem EndsType.atOp_plus {rest : List Token} (h : EndsType rest) : atOp "+" rest = false := by
  cases h <;> rfl

/-- To the depth `depth` and deeper, the code is read as the type where a type may end. -/
def IsType (depth : Nat) (code : List Token) (type : Ty) : Prop :=
  ∀ d, depth ≤ d → ∀ plus {rest}, EndsType rest →
    Reads ((Grammar.atDepth d).type plus) (code ++ rest) type rest

theorem IsType.mono {depth depth' : Nat} {code : List Token} {type : Ty}
    (h : IsType depth code type) (hdepth : depth ≤ depth') : IsType depth' code type :=
  fun d hd => h d (Nat.le_trans hdepth hd)

namespace Grammar

variable (g : Grammar) {rest : List Token}

/-- A path as a type. -/
theorem reads_pathLikeType (plus : Bool) {tokens : List Token} {segments : Tree (.many .segment)}
    {rooted : Bool} {position : Nat}
    (hpath : Reads (g.qualifiedPath false) tokens (.path .absent position rooted segments) rest)
    (hrest : EndsType rest) :
    Reads (g.pathLikeType plus .absent) tokens (.pathType (.path .absent position rooted segments))
      rest := by
  refine hpath.bind (reads_ahead_bind ?_)
  have hbang : atBang rest = false := by simp [atBang, hrest.atOp_bang]
  simp only [hbang, hrest.atOp_plus, Tree.toOption, Option.isSome_none, Bool.and_false,
    Bool.or_self, Bool.false_eq_true, if_false]
  exact reads_pure _ _

/-- A word that begins a path begins no other type. -/
theorem reads_readType_word {plus : Bool} {first : String} {tokens : List Token} {type : Ty}
    (hfirst : IsPathWord first) (hnumber : atOp "#" tokens = false)
    (h : Reads (g.pathLikeType plus .absent) (.word first :: tokens) type rest) :
    Reads (g.readType plus) (.word first :: tokens) type rest := by
  have hword : ∀ k ∈ keywords, k ∉ pathKeywords → atWord k (.word first :: tokens) = false :=
    fun _ => atWord_word_of_isPathWord hfirst
  have hbuiltin : atBuiltin (.word first :: tokens) = false := by
    have hskip : skip (.word first :: tokens) = tokens := rfl
    simp only [atBuiltin, hskip, hnumber, Bool.and_false]
  have hgroup : atGroup .parenthesis (.word first :: tokens) = false := rfl
  refine (reads_forParams?_absent g (hword "for" (by decide) (by decide))).bind ?_
  refine reads_ahead_bind ?_
  simp only [Tree.toOption, Option.isSome_none, hword "fn" (by decide) (by decide),
    hword "unsafe" (by decide) (by decide), hword "extern" (by decide) (by decide), hgroup,
    hbuiltin, atPathName_word hfirst, Bool.false_and, Bool.or_self, Bool.true_or,
    Bool.false_eq_true, if_false, if_true]
  exact h

theorem reads_readType_rooted {plus : Bool} {tokens : List Token} {type : Ty}
    (h : Reads (g.pathLikeType plus .absent) (Code.op "::" ++ tokens) type rest) :
    Reads (g.readType plus) (Code.op "::" ++ tokens) type rest :=
  .of_opens [] (fun _ _ => by exact rfl) h

/-- A lifetime, if there is one, as code. -/
def lifetimeCode (lifetime : Option String) : List Token :=
  lifetime.elim [] Code.lifetime

/-- A mark of what may be changed, if it is there, as code. -/
def mutCode (mutable : Bool) : List Token :=
  if mutable then Code.word "mut" else []

theorem reads_lifetime? {lifetime : Option String} {tokens : List Token}
    (h : atLifetime tokens = false) :
    Reads lifetime? (lifetimeCode lifetime ++ tokens) lifetime tokens := by
  cases lifetime with
  | none => exact reads_lifetime?_none h
  | some name =>
    have hname : Reads Parser.lifetime (Code.lifetime name ++ tokens) name tokens :=
      reads_ahead_bind ((reads_advance _ _).bind (reads_pure _ _))
    exact reads_ahead_bind (hname.bind (reads_pure _ _))

theorem reads_mut? {mutable : Bool} {tokens : List Token} (h : atWord "mut" tokens = false) :
    Reads (keyword? "mut") (mutCode mutable ++ tokens) mutable tokens := by
  cases mutable with
  | true => exact reads_keyword?_true _ _
  | false => exact reads_keyword?_false h

/-- A reference to a type. -/
theorem reads_readType_reference {plus mutable : Bool} {lifetime : Option String}
    {tokens : List Token} {type : Ty} (hlifetime : atLifetime tokens = false)
    (hmut : atWord "mut" tokens = false) (h : Reads (g.type false) tokens type rest) :
    Reads (g.readType plus)
      (Code.op "&" ++ (lifetimeCode lifetime ++ (mutCode mutable ++ tokens)))
      (.referenceType lifetime mutable type) rest := by
  have hmark : atLifetime (mutCode mutable ++ tokens) = false := by
    cases mutable with
    | true => rfl
    | false => exact hlifetime
  have hafter : Reads (do
      let lifetime ← lifetime?
      let mutable ← keyword? "mut"
      return Tree.referenceType lifetime mutable (← g.type false))
      (lifetimeCode lifetime ++ (mutCode mutable ++ tokens))
      (.referenceType lifetime mutable type) rest :=
    (reads_lifetime? hmark).bind ((reads_mut? hmut).bind (h.bind (reads_pure _ _)))
  exact .of_opens (Code.op "&") (fun _ _ => by exact rfl) hafter

/-- A pointer to a type. -/
theorem reads_readType_pointer {plus mutable : Bool} {tokens : List Token} {type : Ty}
    (h : Reads (g.type false) tokens type rest) :
    Reads (g.readType plus)
      (Code.op "*" ++ (Code.word (if mutable then "mut" else "const") ++ tokens))
      (.pointerType mutable type) rest := by
  have hafter : Reads (do
      if ← keyword? "const" then return Tree.pointerType false (← g.type false)
      if ← keyword? "mut" then return Tree.pointerType true (← g.type false)
      expected [code "const", code "mut"])
      (Code.word (if mutable then "mut" else "const") ++ tokens) (.pointerType mutable type)
      rest := by
    cases mutable with
    | true =>
      refine (reads_keyword?_false rfl).bind ((reads_keyword?_true _ _).bind ?_)
      exact h.bind (reads_pure _ _)
    | false => exact (reads_keyword?_true _ _).bind (h.bind (reads_pure _ _))
  exact .of_opens (Code.op "*") (fun _ _ => by exact rfl) hafter

/-- A slice of a type. -/
theorem reads_readType_slice {plus : Bool} {tokens : List Token} {type : Ty}
    (h : Reads (g.type true) tokens type []) :
    Reads (g.readType plus) (Code.brackets tokens ++ rest) (.sliceType type) rest := by
  have hinside : Reads (inside .bracket do
      let elem ← g.type true
      if ← op? ";" then return Tree.arrayType elem (← g.expr true)
      return Tree.sliceType elem) (Code.brackets tokens ++ rest) (.sliceType type) rest := by
    refine reads_inside (h.bind ((reads_op?_false rfl).bind ?_))
    exact reads_pure _ _
  exact .of_opens [] (fun _ _ => by exact rfl) hinside

/-- An array of a type and a length. -/
theorem reads_readType_array {plus : Bool} {tokens length : List Token} {type : Ty} {e : Expr}
    (h : Reads (g.type true) (tokens ++ (Code.op ";" ++ length)) type (Code.op ";" ++ length))
    (hlength : Reads (g.expr true) length e []) :
    Reads (g.readType plus) (Code.brackets (tokens ++ (Code.op ";" ++ length)) ++ rest)
      (.arrayType type e) rest := by
  have hsign : Reads (op? ";") (Code.op ";" ++ length) true length := reads_op?_true rfl
  have hinside : Reads (inside .bracket do
      let elem ← g.type true
      if ← op? ";" then return Tree.arrayType elem (← g.expr true)
      return Tree.sliceType elem) (Code.brackets (tokens ++ (Code.op ";" ++ length)) ++ rest)
      (.arrayType type e) rest :=
    reads_inside (h.bind (hsign.bind (hlength.bind (reads_pure _ _))))
  exact .of_opens [] (fun _ _ => by exact rfl) hinside

/-! ## Types in parentheses -/

/-- No type. -/
theorem reads_enclosed_nil : Reads (enclosed g) [] (.type (.tupleType .nil)) [] :=
  reads_ahead_bind (reads_pure _ _)

/-- Several types, or one with a comma after it. -/
theorem reads_enclosed {tokens : List Token} {pieces : List (List Token)} {first : Ty}
    {types : List Ty} (hne : tokens ≠ []) (hlifetime : ∀ more, atLifetime (tokens ++ more) = false)
    (hquestion : ∀ more, atOp "?" (tokens ++ more) = false)
    (hfirst : ∀ more, Reads (g.type true) (tokens ++ (Code.op "," ++ more)) first
      (Code.op "," ++ more))
    (hmore : ReadsEach (g.type true) pieces types) :
    Reads (enclosed g) (tokens ++ (Code.op "," ++ Code.separated (Code.op ",") pieces))
      (.type (.tupleType (.ofList (first :: types)))) [] := by
  refine reads_ahead_bind ?_
  have hsome : (tokens ++ (Code.op "," ++ Code.separated (Code.op ",") pieces)).isEmpty =
      false := by
    simp [hne]
  simp only [hsome, hlifetime, hquestion, Bool.false_eq_true, if_false]
  refine (hfirst _).bind (reads_ahead_bind ?_)
  exact (reads_op (by decide) _).bind ((reads_commaList hmore).bind (reads_pure _ _))

/-- What stands in parentheses is a tuple, if it is no single type. -/
theorem reads_readType_parens {plus : Bool} {tokens : List Token} {type : Ty}
    (h : Reads (enclosed g) tokens (.type type) []) :
    Reads (g.readType plus) (Code.parens tokens ++ rest) type rest := by
  have hinside : Reads (g.parenthesizedType plus) (Code.parens tokens ++ rest) type rest :=
    (reads_inside h).bind (reads_pure _ _)
  exact .of_opens [] (fun _ _ => by exact rfl) hinside

/-! ## Arguments between angle brackets -/

/-- Pieces of code between angle brackets. -/
def angledCode (pieces : List (List Token)) : List Token :=
  Code.op "<" ++ Code.separated (Code.op ",") pieces ++ Code.op ">"

/-- One of the things between angle brackets. -/
def angledStep {α : Type} (isLifetime : α → Bool) (item : Parser α) :
    Parser (Option (α × Angled)) := do
  if atOp ">" (← ahead) then return none
  let (a, tokens) ← capture item
  let (comma, _) ← capture do
    if atOp ">" (← ahead) then return false
    op ","
    return true
  return some (a, (⟨isLifetime a, tokens, comma⟩ : Angled))

theorem reads_angledStep_none {α : Type} (isLifetime : α → Bool) (item : Parser α)
    (rest : List Token) : Reads (angledStep isLifetime item) (Code.op ">" ++ rest) none
      (Code.op ">" ++ rest) :=
  reads_ahead_bind (reads_pure _ _)

theorem reads_angledStep_last {α : Type} (isLifetime : α → Bool) {item : Parser α} {a : α}
    {piece : List Token} (hpiece : atOp ">" (piece ++ (Code.op ">" ++ rest)) = false)
    (h : Reads item (piece ++ (Code.op ">" ++ rest)) a (Code.op ">" ++ rest)) :
    ∃ written, Reads (angledStep isLifetime item) (piece ++ (Code.op ">" ++ rest))
      (some (a, written)) (Code.op ">" ++ rest) := by
  obtain ⟨tokens, hitem⟩ := reads_capture h
  have hcomma : Reads (do
      if atOp ">" (← ahead) then return false
      op ","
      return true) (Code.op ">" ++ rest) false (Code.op ">" ++ rest) :=
    reads_ahead_bind (reads_pure _ _)
  obtain ⟨_, hcomma⟩ := reads_capture hcomma
  refine ⟨⟨isLifetime a, tokens, false⟩, reads_ahead_bind ?_⟩
  rw [hpiece]
  exact hitem.bind (hcomma.bind (reads_pure _ _))

theorem reads_angledStep {α : Type} (isLifetime : α → Bool) {item : Parser α} {a : α}
    {piece : List Token} (hpiece : atOp ">" (piece ++ (Code.op "," ++ rest)) = false)
    (h : Reads item (piece ++ (Code.op "," ++ rest)) a (Code.op "," ++ rest)) :
    ∃ written, Reads (angledStep isLifetime item) (piece ++ (Code.op "," ++ rest))
      (some (a, written)) rest := by
  obtain ⟨tokens, hitem⟩ := reads_capture h
  have hcomma : Reads (do
      if atOp ">" (← ahead) then return false
      op ","
      return true) (Code.op "," ++ rest) true rest :=
    reads_ahead_bind ((reads_op (by decide) rest).bind (reads_pure _ _))
  obtain ⟨_, hcomma⟩ := reads_capture hcomma
  refine ⟨⟨isLifetime a, tokens, true⟩, reads_ahead_bind ?_⟩
  rw [hpiece]
  exact hitem.bind (hcomma.bind (reads_pure _ _))

/-- Where one of the things between angle brackets is at its end. -/
inductive EndsAngled : List Token → Prop where
  | comma {joint : Bool} {more : List Token} : EndsAngled (.sign ',' joint :: more)
  | angle {joint : Bool} {more : List Token} : EndsAngled (.sign '>' joint :: more)

/-- A piece of code that is read between angle brackets. -/
def ReadsAngled {α : Type} (item : Parser α) (piece : List Token) (a : α) : Prop :=
  (∀ rest, atOp ">" (piece ++ rest) = false) ∧ piece ≠ [] ∧
    ∀ rest, EndsAngled rest → Reads item (piece ++ rest) a rest

/-- Things between angle brackets are read one by one. -/
theorem reads_angled {α : Type} {isLifetime : α → Bool} {item : Parser α}
    {pieces : List (List Token)} {items : List α}
    (h : List.Forall₂ (ReadsAngled item) pieces items) :
    Reads (angled isLifetime item) (angledCode pieces ++ rest) items rest := by
  have hcollects : ∃ found, found.map (·.1) = items ∧
      CollectsIn (angledStep isLifetime item)
        (Code.separated (Code.op ",") pieces ++ (Code.op ">" ++ rest)) found
        (Code.op ">" ++ rest) := by
    induction h with
    | nil => exact ⟨[], rfl, .done (reads_angledStep_none _ _ _)⟩
    | @cons piece a pieces items hpiece hpieces ih =>
      obtain ⟨hangle, hne, hreads⟩ := hpiece
      cases hpieces with
      | nil =>
        obtain ⟨written, hlast⟩ := reads_angledStep_last isLifetime (hangle (Code.op ">" ++ rest))
          (hreads _ .angle)
        refine ⟨[(a, written)], rfl, .more hlast ?_ (.done (reads_angledStep_none _ _ _))⟩
        simpa [Code.separated] using List.length_pos_of_ne_nil hne
      | @cons next b pieces items hnext hrest =>
        obtain ⟨found, hfound, hcollects⟩ := ih
        have hsplit : Code.separated (Code.op ",") (piece :: next :: pieces) ++
            (Code.op ">" ++ rest) = piece ++ (Code.op "," ++
              (Code.separated (Code.op ",") (next :: pieces) ++ (Code.op ">" ++ rest))) := by
          simp only [Code.separated, List.append_assoc]
        obtain ⟨written, hstep⟩ := reads_angledStep isLifetime (hangle (Code.op "," ++
          (Code.separated (Code.op ",") (next :: pieces) ++ (Code.op ">" ++ rest))))
          (hreads _ .comma)
        rw [hsplit]
        refine ⟨(a, written) :: found, by rw [List.map_cons, hfound], .more hstep ?_ hcollects⟩
        simp [Code.op, Code.opSigns]
        omega
  obtain ⟨found, rfl, hcollects⟩ := hcollects
  rw [angledCode, List.append_assoc, List.append_assoc]
  refine (reads_op (by decide) _).bind (hcollects.reads.bind ?_)
  exact (reads_write _).bind ((reads_op (by decide) _).bind (reads_pure _ _))

/-- A type between angle brackets is an argument. -/
theorem reads_genericArg {tokens : List Token} {type : Ty} (hlifetime : atLifetime tokens = false)
    (hliteral : atLiteral tokens = false) (hblock : atGroup .brace tokens = false)
    (h : Reads (g.type true) tokens type rest) (hequals : atOp "=" rest = false)
    (hcolon : atOp ":" rest = false) : Reads g.genericArg tokens (.typeArg type) rest := by
  refine reads_ahead_bind ?_
  simp only [hlifetime, hliteral, hblock, Bool.false_and, Bool.or_self, Bool.false_eq_true,
    if_false]
  refine h.bind ?_
  cases bindingName? type with
  | none => exact reads_pure _ _
  | some binding =>
    exact (reads_op?_false hequals).bind ((reads_op?_false hcolon).bind (reads_pure _ _))

/-- A name with arguments is a part of a path. -/
theorem reads_segment_angled {name : String} {pieces : List (List Token)}
    {args : List (Tree .genericArg)} (hname : isName name = true)
    (hargs : Reads g.angledArgs (angledCode pieces ++ rest) args rest) :
    Reads (g.segment false) (Code.word name ++ (angledCode pieces ++ rest))
      (.segmentOf name false (.ofList args)) rest := by
  have hword : ∀ k ∈ keywords, atWord k (Code.word name ++ (angledCode pieces ++ rest)) = false :=
    fun _ => atWord_word_of_isName hname
  have hcolons : atOp "::" (angledCode pieces ++ rest) = false := rfl
  refine reads_ahead_bind ?_
  simp only [hword "super" (by decide), hword "self" (by decide), hword "crate" (by decide),
    hword "try" (by decide), hword "Self" (by decide), Bool.or_self, Bool.false_eq_true, if_false]
  refine (reads_name hname _).bind (reads_ahead_bind ?_)
  rw [if_pos (by exact rfl)]
  exact (reads_op?_false hcolons).bind (hargs.bind (reads_pure _ _))

/-- A path whose last part has arguments. -/
def angledPath (rooted : Bool) (before : List String) (name : String)
    (args : List (Tree .genericArg)) : Tree .path :=
  .path .absent 0 rooted (.ofList (before.map .segment ++ [.segmentOf name false (.ofList args)]))

/-- A path whose last part has arguments, as code. -/
def angledPathCode (rooted : Bool) (before : List String) (name : String)
    (pieces : List (List Token)) : List Token :=
  (if rooted then Code.op "::" else []) ++
    before.flatMap (fun text => Code.word text ++ Code.op "::") ++ Code.word name ++
      angledCode pieces

theorem reads_moreSegments_angled {words : List String} {name : String}
    {pieces : List (List Token)} {args : List (Tree .genericArg)}
    (hwords : ∀ text ∈ words, IsPathWord text) (hrest : atOp "::" rest = false)
    (hsegment : Reads (g.segment false) (Code.word name ++ (angledCode pieces ++ rest))
      (.segmentOf name false (.ofList args)) rest) :
    Reads (g.moreSegments false)
      (partsCode words ++ (Code.op "::" ++ (Code.word name ++ (angledCode pieces ++ rest))))
      (words.map .segment ++ [.segmentOf name false (.ofList args)]) rest := by
  rw [moreSegments_eq_collect]
  apply CollectsIn.reads
  induction words with
  | nil =>
    refine .more (g.reads_segmentStep hsegment) ?_ (.done (reads_ahead_bind ?_))
    · simp [partsCode, Code.op, Code.opSigns]
      omega
    · simp only [hrest]
      exact reads_pure _ _
  | cons text words ih =>
    obtain ⟨htext, hwords⟩ := List.forall_mem_cons.1 hwords
    refine .more (g.reads_segmentStep (reads_segment g htext ?_ ?_)) ?_ (ih hwords)
    · intro _
      cases words <;> rfl
    · intro _
      cases words <;> rfl
    · simp [partsCode, Code.op, Code.opSigns, Function.comp_def]
      omega

theorem reads_angledPath {rooted : Bool} {before : List String} {name : String}
    {pieces : List (List Token)} {args : List (Tree .genericArg)}
    (hbefore : ∀ text ∈ before, IsPathWord text) (hname : isName name = true)
    (hrest : atOp "::" rest = false)
    (hargs : Reads g.angledArgs (angledCode pieces ++ rest) args rest) :
    Reads (g.path false) (angledPathCode rooted before name pieces ++ rest)
      (angledPath rooted before name args) rest := by
  have hsegment := reads_segment_angled g hname hargs
  have hrooted : Reads (op? "::") (angledPathCode rooted before name pieces ++ rest) rooted
      (before.flatMap (fun text => Code.word text ++ Code.op "::") ++
        (Code.word name ++ (angledCode pieces ++ rest))) := by
    simp only [angledPathCode, List.append_assoc]
    cases rooted with
    | true => exact reads_op?_true rfl
    | false => exact reads_op?_false (by cases before <;> rfl)
  have hparts : Reads (g.pathParts false) (angledPathCode rooted before name pieces ++ rest)
      (rooted, before.map .segment ++ [.segmentOf name false (.ofList args)]) rest := by
    refine hrooted.bind ?_
    cases before with
    | nil =>
      refine hsegment.bind ?_
      have hends : Reads (g.moreSegments false) rest [] rest := by
        refine CollectsIn.reads (.done (reads_ahead_bind ?_))
        simp only [hrest]
        exact reads_pure _ _
      exact hends.bind (reads_pure _ _)
    | cons first more =>
      obtain ⟨hfirst, hmore⟩ := List.forall_mem_cons.1 hbefore
      have hcode : (first :: more).flatMap (fun text => Code.word text ++ Code.op "::") ++
          (Code.word name ++ (angledCode pieces ++ rest)) =
          .word first :: (partsCode more ++
            (Code.op "::" ++ (Code.word name ++ (angledCode pieces ++ rest)))) := by
        have hshift : ∀ words : List String, Code.op "::" ++
            words.flatMap (fun text => Code.word text ++ Code.op "::") =
              partsCode words ++ Code.op "::" := by
          intro words
          induction words with
          | nil => rfl
          | cons text words ih =>
            simp only [partsCode, List.flatMap_cons, List.append_assoc] at ih ⊢
            rw [ih]
        rw [List.flatMap_cons, List.append_assoc, List.append_assoc,
          ← List.append_assoc (Code.op "::"), hshift, List.append_assoc]
        rfl
      rw [hcode]
      have hfirst : Reads (g.segment false) (.word first :: (partsCode more ++
          (Code.op "::" ++ (Code.word name ++ (angledCode pieces ++ rest))))) (.segment first) _ :=
        reads_segment g hfirst (fun _ => by cases more <;> rfl) (fun _ => by cases more <;> rfl)
      exact hfirst.bind ((reads_moreSegments_angled g hmore hrest hsegment).bind (reads_pure _ _))
  exact hparts.bind (reads_pure _ _)

end Grammar

end ForeignWrap.Syntax
