import ForeignWrap.Proofs.Syntax.Extent
import ForeignWrap.Proofs.Syntax.Statement

/-!
# Impl blocks as code

An impl block of one function is read with the body that it was written with, whatever the types in
its head are: where a type stands in front of a block, what is read of it ends at the block.

## Main definitions

* `ForeignWrap.Syntax.IsImplOf`: an impl block of one function with a body.

## Main statements

* `ForeignWrap.Syntax.isImplOf_of_readItem`: what is read is such a block.
* `ForeignWrap.Syntax.forall₂_of_untilEnd`: items are read one by one off their own code.
-/

namespace ForeignWrap.Syntax

open Code (Delimiter Token word parens brackets braces)
open Syntax.Parser

section Readers

variable {g : Grammar} {input final : Input} {content after : List Token}

/-- One thing after another: the first step finds none, or one and then more. -/
theorem collectUpTo_succ_eq_ok {α : Type} {step : Parser (Option α)} {items : List α} {bound : Nat}
    (h : collectUpTo step (bound + 1) input = .ok (items, final)) :
    (items = [] ∧ step input = .ok (none, final)) ∨
      ∃ a between more, items = a :: more ∧ step input = .ok (some a, between) ∧
        collectUpTo step bound between = .ok (more, final) := by
  obtain ⟨found, between, hstep, h⟩ := bind_input_eq_ok_iff.1 h
  cases found with
  | none =>
    cases h
    exact .inl ⟨rfl, hstep⟩
  | some a =>
    obtain ⟨more, last, hmore, h⟩ := bind_input_eq_ok_iff.1 h
    cases h
    exact .inr ⟨a, between, more, rfl, hstep, hmore⟩

theorem rest_of_attributesUpTo {contents : List (List Token)} {rest : List Token}
    {attrs : List Attribute} {bound : Nat} (hbound : contents.length < bound)
    (hrest : input.rest = contents.flatMap (Code.op "#" ++ brackets ·) ++ rest)
    (hnext : atOp "#" rest = false)
    (h : collectUpTo (do
      if !(← op? "#") then return none
      return some (← inside .bracket (g.attributeBody false))) bound input = .ok (attrs, final)) :
    final.rest = rest := by
  induction contents generalizing bound input attrs with
  | nil =>
    obtain ⟨bound, rfl⟩ := Nat.exists_eq_add_one.2 hbound
    have hnone : Reads (op? "#") input.rest false input.rest :=
      reads_op?_false (by rw [hrest]; exact hnext)
    obtain ⟨-, hstep⟩ | ⟨attr, between, more, -, hstep, -⟩ := collectUpTo_succ_eq_ok h
    · obtain ⟨between, hbetween, -, hstep⟩ := hnone.of_bind_eq_ok hstep
      cases hstep
      exact hbetween.trans hrest
    · obtain ⟨between, hbetween, -, hstep⟩ := hnone.of_bind_eq_ok hstep
      cases hstep
  | cons content contents ih =>
    obtain ⟨bound, rfl⟩ := Nat.exists_eq_add_one.2 (Nat.lt_of_le_of_lt (Nat.zero_le _) hbound)
    have hsome : Reads (op? "#") input.rest true
        (brackets content ++ (contents.flatMap (Code.op "#" ++ brackets ·) ++ rest)) := by
      refine reads_op?_true ?_
      rw [hrest, List.flatMap_cons, List.append_assoc, List.append_assoc]
      exact afterOp?_op (by decide) _
    obtain ⟨-, hstep⟩ | ⟨attr, between, more, -, hstep, hmore⟩ := collectUpTo_succ_eq_ok h
    · obtain ⟨between, -, -, hstep⟩ := hsome.of_bind_eq_ok hstep
      obtain ⟨attr, last, -, hstep⟩ := bind_input_eq_ok_iff.1 hstep
      cases hstep
    · obtain ⟨opened, hopened, -, hstep⟩ := hsome.of_bind_eq_ok hstep
      obtain ⟨attr, last, hinside, hstep⟩ := bind_input_eq_ok_iff.1 hstep
      cases hstep
      obtain ⟨content', inner, rest', hgroup, -, hlast, -⟩ := inside_eq_ok hinside
      rw [hopened] at hgroup
      cases hgroup
      exact ih (by simpa using hbound) hlast hmore

/-- Attributes end where no other begins. -/
theorem rest_of_outerAttributes {contents : List (List Token)} {rest : List Token}
    {attrs : List Attribute}
    (hrest : input.rest = contents.flatMap (Code.op "#" ++ brackets ·) ++ rest)
    (hnext : atOp "#" rest = false) (h : g.outerAttributes input = .ok (attrs, final)) :
    final.rest = rest := by
  refine rest_of_attributesUpTo ?_ hrest hnext (ahead_bind_eq_ok_iff.1 h)
  have hsum : contents.length ≤ (contents.flatMap (Code.op "#" ++ brackets ·)).length := by
    clear hrest
    induction contents with
    | nil => simp
    | cons content contents ih =>
      have hone : 1 ≤ (Code.op "#" ++ brackets content).length := by simp [brackets]
      rw [List.flatMap_cons, List.length_append, List.length_cons]
      omega
  rw [hrest, List.length_append]
  omega

theorem orRaw_eq_ok {α : Type} {raw : List Token → α} {p : Parser (Option α)} {a : α}
    (h : orRaw raw p input = .ok (a, final)) :
    ∃ found last, p input = .ok (found, last) ∧ final.rest = last.rest ∧
      ∀ a', found = some a' → a = a' := by
  rw [orRaw_apply] at h
  obtain ⟨⟨found, last⟩, hread, h⟩ := bind_eq_ok_iff.1 h
  refine ⟨found, last, hread, ?_⟩
  cases found with
  | some a' =>
    cases h
    exact ⟨rfl, fun a' ha => Option.some.inj ha⟩
  | none =>
    obtain ⟨tokens, between, hkeep, h⟩ := bind_input_eq_ok_iff.1 h
    cases hkeep
    cases h
    exact ⟨rfl, by simp⟩

/-! ## Functions in an impl block -/

/-- The code of a function after its visibility, with one result type and no conditions. -/
def fnCode (name : String) (params type body : List Token) : List Token :=
  word "fn" ++ (word name ++ (parens params ++ (Code.op "->" ++ (type ++ braces body))))

theorem reads_genericParams_nil {tokens : List Token} (h : atOp "<" tokens = false) :
    Reads g.genericParams tokens [] tokens := by
  refine reads_unlessEmpty (reads_ahead_bind ?_)
  rw [if_neg (by simp [h])]
  exact reads_pure _ _

/-- The head of a function in front of its body. -/
theorem stopsBefore_of_signature {depth : Nat} {name : String} {signature : Tree .signature}
    {params type body rest : List Token} (hname : isName name = true) (htype : IsWhole type)
    (hrest : input.rest = fnCode name params type body ++ rest)
    (h : (Grammar.atDepth depth).signature input = .ok (signature, final)) :
    StopsBefore (.group .brace body) rest final.rest := by
  obtain ⟨⟨signature', isSafe⟩, headed, hsigned, h⟩ := bind_input_eq_ok_iff.1 h
  cases h
  have hword : ∀ text ≠ "fn", atWord text input.rest = false := by
    intro text htext
    rw [hrest]
    simp [fnCode, word, atWord, htext.symm]
  obtain ⟨input₁, hrest₁, -, hsigned⟩ :=
    (reads_keyword?_false (hword "const" (by decide))).of_bind_eq_ok hsigned
  rw [← hrest₁] at hword hrest
  obtain ⟨input₂, hrest₂, -, hsigned⟩ :=
    (reads_keyword?_false (hword "async" (by decide))).of_bind_eq_ok hsigned
  rw [← hrest₂] at hword hrest
  obtain ⟨input₃, hrest₃, -, hsigned⟩ :=
    (reads_keyword?_false (hword "unsafe" (by decide))).of_bind_eq_ok hsigned
  rw [← hrest₃] at hword hrest
  obtain ⟨input₄, hrest₄, -, hsigned⟩ := (reads_pure false input₃.rest).of_bind_eq_ok hsigned
  rw [← hrest₄] at hword hrest
  have habi : Reads Grammar.abi? input₄.rest none input₄.rest :=
    (reads_keyword?_false (hword "extern" (by decide))).bind (reads_pure _ _)
  obtain ⟨input₅, hrest₅, -, hsigned⟩ := habi.of_bind_eq_ok hsigned
  rw [← hrest₅] at hrest
  have hfn : Reads (keyword "fn") input₅.rest () (word name ++ (parens params ++
      (Code.op "->" ++ (type ++ braces body))) ++ rest) := by
    rw [hrest]
    exact reads_keyword _ _
  obtain ⟨input₆, hrest₆, -, hsigned⟩ := hfn.of_bind_eq_ok hsigned
  have hnamed : Reads Parser.name input₆.rest name (parens params ++
      (Code.op "->" ++ (type ++ braces body)) ++ rest) := by
    rw [hrest₆]
    exact reads_name hname _
  obtain ⟨input₇, hrest₇, -, hsigned⟩ := hnamed.of_bind_eq_ok hsigned
  have hgenerics : Reads (Grammar.atDepth depth).genericParams input₇.rest [] input₇.rest :=
    reads_genericParams_nil (by rw [hrest₇]; rfl)
  obtain ⟨input₈, hrest₈, -, hsigned⟩ := hgenerics.of_bind_eq_ok hsigned
  obtain ⟨params', input₉, hparams, hsigned⟩ := bind_input_eq_ok_iff.1 hsigned
  obtain ⟨content, inner, rest', hgroup, -, hrest₉, -⟩ := inside_eq_ok hparams
  rw [hrest₈, hrest₇] at hgroup
  obtain rfl : Code.op "->" ++ (type ++ braces body) ++ rest = rest' := (List.cons.inj hgroup).2
  obtain ⟨output, input₁₀, houtput, hsigned⟩ := bind_input_eq_ok_iff.1 hsigned
  obtain ⟨conditions, last, hconditions, hlast⟩ := bind_input_eq_ok_iff.1 hsigned
  cases hlast
  have harrow : Reads (op? "->") input₉.rest true (type ++ .group .brace body :: rest) := by
    refine reads_op?_true ?_
    rw [hrest₉, List.append_assoc, List.append_assoc]
    exact afterOp?_op (by decide) _
  obtain ⟨input₁₁, hrest₁₁, -, houtput⟩ := harrow.of_bind_eq_ok houtput
  obtain ⟨result, input₁₂, hresult, houtput⟩ := bind_input_eq_ok_iff.1 houtput
  cases houtput
  have hstops := stopsBefore_of_type_eq_ok (scanned_atDepth depth) (.inr htype.opened) hrest₁₁
    hresult
  rwa [hstops.conditions ⟨body, rfl⟩ hconditions]

/-- A function in front of more tokens is read with its own body. -/
theorem exists_fnItem_of_fnItem? {depth : Nat} {attrs : List Attribute} {name : String}
    {params type body rest : List Token} {found : Option Item} (hname : isName name = true)
    (htype : IsWhole type) (hbody : atOp "#" body = false)
    (hrest : input.rest = fnCode name params type body ++ rest)
    (h : (Grammar.atDepth depth).fnItem? .impl attrs .everyone false input = .ok (found, final)) :
    ∃ signature stmts start last, start.rest = body ∧
      (Grammar.atDepth depth).stmts start = .ok (stmts, last) ∧
      found = some (.fnItem (.ofList attrs) .everyone false signature
        (.present (stmtsBlock stmts))) ∧ final.rest = rest := by
  obtain ⟨signature, headed, hsignature, h⟩ := bind_input_eq_ok_iff.1 h
  have hstops := stopsBefore_of_signature hname htype hrest hsignature
  have hsemicolon : Reads (op? ";") headed.rest false headed.rest := by
    refine reads_op?_false ?_
    obtain hblock | ⟨t, more, htokens, -, -, -, hsign⟩ := hstops
    · rw [hblock]
      rfl
    · rw [htokens]
      cases t with
      | sign c joint =>
        have hc : c ≠ ';' := by
          rintro rfl
          exact hsign joint rfl
        simp [atOp, afterOp?, hc.symm]
      | _ => rfl
  obtain ⟨between, hbetween, -, h⟩ := hsemicolon.of_bind_eq_ok h
  rw [← hbetween] at hstops
  have h := ahead_bind_eq_ok_iff.1 h
  rw [if_neg (by simp)] at h
  obtain ⟨block, last, hblock, hfound⟩ := bind_input_eq_ok_iff.1 h
  cases hfound
  obtain ⟨inside, hinside, hfinal⟩ := hstops.inside hblock
  have hinner : Reads (Grammar.atDepth depth).innerAttributes body [] body := by
    apply CollectsIn.reads
    refine .done (reads_ahead_bind ?_)
    simp only [hbody]
    exact reads_pure _ _
  obtain ⟨start, hstart, -, hread⟩ := hinner.of_bind_eq_ok hinside
  obtain ⟨stmts, last, hstmts, hlast⟩ := bind_input_eq_ok_iff.1 hread
  cases hlast
  exact ⟨signature, stmts, start, _, hstart, hstmts, rfl, hfinal⟩

theorem reads_visibility_everyone (tokens : List Token) :
    Reads visibility (word "pub" ++ (word "fn" ++ tokens)) .everyone (word "fn" ++ tokens) := by
  refine (reads_keyword?_true "pub" _).bind ?_
  exact reads_ahead_bind (reads_pure _ _)

/-- A public function is read with its own body, whatever attributes it has. -/
theorem exists_fnItem_of_readImplItem {depth : Nat} {contents : List (List Token)} {name : String}
    {params type body rest : List Token} {item : Item} (hname : isName name = true)
    (htype : IsWhole type) (hbody : atOp "#" body = false)
    (hrest : input.rest = contents.flatMap (Code.op "#" ++ brackets ·) ++
      (word "pub" ++ fnCode name params type body ++ rest))
    (h : (Grammar.atDepth depth).readImplItem input = .ok (item, final)) :
    ∃ attrs signature stmts start last, start.rest = body ∧
      (Grammar.atDepth depth).stmts start = .ok (stmts, last) ∧
      item = .fnItem (.ofList attrs) .everyone false signature (.present (stmtsBlock stmts)) ∧
      final.rest = rest := by
  obtain ⟨found, last, hread, hlast, hitem⟩ := orRaw_eq_ok h
  obtain ⟨attrs, attributed, hattrs, hread⟩ := bind_input_eq_ok_iff.1 hread
  have hattributed := rest_of_outerAttributes hrest rfl hattrs
  have hvisibility : Reads visibility attributed.rest .everyone
      (fnCode name params type body ++ rest) := by
    rw [hattributed]
    exact reads_visibility_everyone _
  obtain ⟨visible, hvisible, -, hread⟩ := hvisibility.of_bind_eq_ok hread
  have hread := ahead_bind_eq_ok_iff.1 hread
  have hdefault : atWord "default" visible.rest = false := by
    rw [hvisible]
    rfl
  simp only [hdefault, Bool.false_and, Bool.false_eq_true, if_false] at hread
  have hread := ahead_bind_eq_ok_iff.1 hread
  have hsignature : atSignature false visible.rest = true := by
    rw [hvisible]
    rfl
  simp only [hsignature, if_true] at hread
  obtain ⟨signature, stmts, start, last', hstart, hstmts, rfl, hfinal⟩ :=
    exists_fnItem_of_fnItem? hname htype hbody hvisible hread
  exact ⟨attrs, signature, stmts, start, last', hstart, hstmts, hitem _ rfl, hlast.trans hfinal⟩

/-! ## One after another -/

theorem endStep_eq_ok {α : Type} {item : Parser α} {found : Option α}
    (h : endStep item input = .ok (found, final)) :
    found = none ∧ final = input ∧ input.rest = [] ∨
      ∃ a, found = some a ∧ item input = .ok (a, final) ∧ input.rest ≠ [] := by
  obtain ⟨between, hbetween, -, h⟩ : ∃ between, between = input ∧ True ∧ (do
      if input.rest.isEmpty then return none
      return some (← item) : Parser (Option α)) between = .ok (found, final) :=
    ⟨input, rfl, trivial, h⟩
  subst hbetween
  split at h
  case isTrue hempty =>
    cases h
    exact .inl ⟨rfl, rfl, by simpa using hempty⟩
  case isFalse hne =>
    obtain ⟨a, last, ha, h⟩ := bind_input_eq_ok_iff.1 h
    cases h
    exact .inr ⟨a, rfl, ha, by simpa using hne⟩

theorem length_le_length_flatten {pieces : List (List Token)} (h : ∀ piece ∈ pieces, piece ≠ []) :
    pieces.length ≤ pieces.flatten.length := by
  induction pieces with
  | nil => simp
  | cons piece pieces ih =>
    obtain ⟨hne, hpieces⟩ := List.forall_mem_cons.1 h
    have hone := List.length_pos_of_ne_nil hne
    have hmore := ih hpieces
    simp only [List.flatten_cons, List.length_append, List.length_cons]
    omega

/-- Where a reader takes each piece as a whole, it reads one thing off each. -/
theorem forall₂_of_untilEndUpTo {α : Type} {item : Parser α} {P : List Token → α → Prop}
    {pieces : List (List Token)} {items : List α} {bound : Nat}
    (hpieces : ∀ piece ∈ pieces, piece ≠ [] ∧ ∀ {input final a rest},
      input.rest = piece ++ rest → item input = .ok (a, final) → final.rest = rest ∧ P piece a)
    (hrest : input.rest = pieces.flatten) (hbound : pieces.length < bound)
    (h : collectUpTo (endStep item) bound input = .ok (items, final)) :
    List.Forall₂ P pieces items ∧ final.rest = [] := by
  induction pieces generalizing input items bound with
  | nil =>
    obtain ⟨bound, rfl⟩ := Nat.exists_eq_add_one.2 hbound
    obtain ⟨rfl, hstep⟩ | ⟨a, between, more, -, hstep, -⟩ := collectUpTo_succ_eq_ok h
    · obtain ⟨-, rfl, hempty⟩ | ⟨a, hsome, -⟩ := endStep_eq_ok hstep
      · exact ⟨.nil, hempty⟩
      · cases hsome
    · obtain ⟨hnone, -⟩ | ⟨a, -, -, hne⟩ := endStep_eq_ok hstep
      · cases hnone
      · exact absurd hrest hne
  | cons piece pieces ih =>
    obtain ⟨bound, rfl⟩ := Nat.exists_eq_add_one.2 (Nat.lt_of_le_of_lt (Nat.zero_le _) hbound)
    obtain ⟨⟨hne, hpiece⟩, hpieces⟩ := List.forall_mem_cons.1 hpieces
    obtain ⟨rfl, hstep⟩ | ⟨a, between, more, rfl, hstep, hmore⟩ := collectUpTo_succ_eq_ok h
    · obtain ⟨-, -, hempty⟩ | ⟨a, hsome, -⟩ := endStep_eq_ok hstep
      · rw [hrest, List.flatten_cons, List.append_eq_nil_iff] at hempty
        exact absurd hempty.1 hne
      · cases hsome
    · obtain ⟨hnone, -⟩ | ⟨a', hsome, hitem, -⟩ := endStep_eq_ok hstep
      · cases hnone
      · cases hsome
        obtain ⟨hbetween, hP⟩ := hpiece hrest hitem
        obtain ⟨hitems, hfinal⟩ := ih hpieces hbetween (by simpa using hbound) hmore
        exact ⟨.cons hP hitems, hfinal⟩

theorem forall₂_of_untilEnd {α : Type} {item : Parser α} {P : List Token → α → Prop}
    {pieces : List (List Token)} {items : List α}
    (hpieces : ∀ piece ∈ pieces, piece ≠ [] ∧ ∀ {input final a rest},
      input.rest = piece ++ rest → item input = .ok (a, final) → final.rest = rest ∧ P piece a)
    (hrest : input.rest = pieces.flatten) (h : untilEnd item input = .ok (items, final)) :
    List.Forall₂ P pieces items ∧ final.rest = [] := by
  refine forall₂_of_untilEndUpTo hpieces hrest ?_ (ahead_bind_eq_ok_iff.1 h)
  have hlength : pieces.length ≤ pieces.flatten.length :=
    length_le_length_flatten fun piece hpiece => (hpieces piece hpiece).1
  rw [hrest]
  omega

/-- What is read off a piece that comes first, where the reader reads it for certain. -/
theorem exists_of_untilEndUpTo_append {α : Type} {item : Parser α} {codes : List (List Token)}
    {known items : List α} {rest : List Token} {bound : Nat}
    (hcodes : List.Forall₂ (fun code a => code ≠ [] ∧ ∀ rest, Reads item (code ++ rest) a rest)
      codes known)
    (hrest : input.rest = codes.flatten ++ rest) (hbound : codes.length < bound)
    (h : collectUpTo (endStep item) bound input = .ok (items, final)) :
    ∃ more, items = known ++ more := by
  induction hcodes generalizing input items bound with
  | nil => exact ⟨items, rfl⟩
  | @cons code a codes known hcode hcodes ih =>
    obtain ⟨bound, rfl⟩ := Nat.exists_eq_add_one.2 (Nat.lt_of_le_of_lt (Nat.zero_le _) hbound)
    rw [List.flatten_cons, List.append_assoc] at hrest
    obtain ⟨rfl, hstep⟩ | ⟨a', between, more, rfl, hstep, hmore⟩ := collectUpTo_succ_eq_ok h
    · obtain ⟨-, -, hempty⟩ | ⟨a, hsome, -⟩ := endStep_eq_ok hstep
      · rw [hrest, List.append_eq_nil_iff] at hempty
        exact absurd hempty.1 hcode.1
      · cases hsome
    · obtain ⟨hnone, -⟩ | ⟨a'', hsome, hitem, -⟩ := endStep_eq_ok hstep
      · cases hnone
      · cases hsome
        have hread := hcode.2 (codes.flatten ++ rest)
        rw [← hrest] at hread
        obtain ⟨rfl, hbetween, -⟩ := hread.eq_of_eq_ok hitem
        obtain ⟨more, rfl⟩ := ih hbetween (by simpa using hbound) hmore
        exact ⟨more, rfl⟩

theorem exists_of_untilEnd_append {α : Type} {item : Parser α} {items known : List α}
    {codes : List (List Token)} {rest : List Token}
    (hcodes : List.Forall₂ (fun code a => code ≠ [] ∧ ∀ rest, Reads item (code ++ rest) a rest)
      codes known)
    (hrest : input.rest = codes.flatten ++ rest) (h : untilEnd item input = .ok (items, final)) :
    ∃ more, items = known ++ more := by
  refine exists_of_untilEndUpTo_append hcodes hrest ?_ (ahead_bind_eq_ok_iff.1 h)
  have hlength : codes.length ≤ codes.flatten.length :=
    length_le_length_flatten (forall_mem_of_forall₂ hcodes fun _ _ h => h.1)
  rw [hrest, List.length_append]
  omega

theorem reads_visibility_inherited {tokens : List Token} (h : atWord "pub" tokens = false) :
    Reads visibility tokens .inherited tokens :=
  (reads_keyword?_false h).bind (reads_pure _ _)

/-- After `impl` an item is an impl block. -/
theorem implBlock?_of_itemAfter? {rest : List Token} {found : Option Item}
    (hrest : input.rest = .word "impl" :: rest)
    (h : g.itemAfter? [] input = .ok (found, final)) :
    ∃ between, between.rest = .word "impl" :: rest ∧
      g.implBlock? [] .inherited between = .ok (found, final) := by
  have hword : ∀ text ≠ "impl", atWord text input.rest = false := by
    intro text htext
    rw [hrest]
    simp [atWord, htext.symm]
  obtain ⟨visible, hvisible, -, h⟩ :=
    (reads_visibility_inherited (hword "pub" (by decide))).of_bind_eq_ok h
  rw [← hvisible] at hword hrest
  have h := ahead_bind_eq_ok_iff.1 h
  have hsignature : atSignature false visible.rest = false := by
    rw [hrest]
    rfl
  simp only [hsignature, hword "extern" (by decide), Bool.false_eq_true, if_false] at h
  obtain ⟨used, hused, -, h⟩ := (reads_keyword?_false (hword "use" (by decide))).of_bind_eq_ok h
  simp only [hword "static" (by decide), Bool.false_eq_true, if_false] at h
  rw [← hused] at hword hrest h
  obtain ⟨const, hconst, -, h⟩ := (reads_keyword?_false (hword "const" (by decide))).of_bind_eq_ok h
  rw [← hconst] at hword hrest h
  have himpl : atWord "impl" const.rest = true := by
    rw [hrest]
    rfl
  simp only [hword "unsafe" (by decide), hword "mod" (by decide), hword "type" (by decide),
    hword "struct" (by decide), hword "enum" (by decide), hword "union" (by decide),
    hword "trait" (by decide), hword "auto" (by decide), himpl, Bool.false_and, Bool.or_false,
    Bool.true_or, Bool.false_eq_true, if_false, if_true] at h
  exact ⟨const, hrest, h⟩

/-! ## An impl block of one function -/

/-- The function that an item is an impl block of, if it is one of a type, and of one function. -/
inductive IsImplOf (g : Grammar) (body : List Token) : Item → Prop where
  | impl {attrs : List Attribute} {inner : List Attribute} {generics : Tree .generics} {type : Ty}
      {signature : Tree .signature} {stmts : List Stmt} {start last : Input} :
      start.rest = body → g.stmts start = .ok (stmts, last) →
      IsImplOf g body (.implItem (.ofList inner) false false generics false .absent type
        (.ofList [.fnItem (.ofList attrs) .everyone false signature (.present (stmtsBlock stmts))]))

/-- What an impl block of one function holds, each of its attributes in brackets. -/
def fnContent (contents : List (List Token)) (name : String) (params type body : List Token) :
    List Token :=
  contents.flatMap (Code.op "#" ++ brackets ·) ++ (word "pub" ++ fnCode name params type body)

/-- There are no inner attributes where no `#` stands before a `!`. -/
theorem reads_innerAttributes_nil {tokens : List Token}
    (h : atOp "#" tokens = false ∨ atOp "!" (skip tokens) = false) :
    Reads g.innerAttributes tokens [] tokens := by
  refine CollectsIn.reads (.done (reads_ahead_bind ?_))
  obtain h | h := h
  · simp only [h, Bool.not_false, Bool.true_or, if_true]
    exact reads_pure _ _
  · simp only [h, Bool.not_false, Bool.or_true, if_true]
    exact reads_pure _ _

theorem reads_innerAttributes_fnContent (contents : List (List Token)) (name : String)
    (params type body : List Token) :
    Reads g.innerAttributes (fnContent contents name params type body) []
      (fnContent contents name params type body) := by
  cases contents with
  | nil => exact reads_innerAttributes_nil (.inl rfl)
  | cons content contents => exact reads_innerAttributes_nil (.inr rfl)

/-- An impl block of one function is read as that, whatever its types are. -/
theorem isImplOf_of_readItem {depth : Nat} {self : List Token} {contents : List (List Token)}
    {name : String} {params type body rest : List Token} {item : Item} (hname : isName name = true)
    (hself : IsWhole self) (htype : IsWhole type) (hbody : atOp "#" body = false)
    (hrest : input.rest = .word "impl" :: (self ++
      .group .brace (fnContent contents name params type body) :: rest))
    (h : (Grammar.atDepth (depth + 1)).readItem input = .ok (item, final)) :
    final.rest = rest ∧ IsImplOf (Grammar.atDepth depth) body item := by
  obtain ⟨found, last, hread, hlast, hitem⟩ := orRaw_eq_ok h
  have hattrs : Reads (Grammar.atDepth (depth + 1)).outerAttributes input.rest [] input.rest :=
    Grammar.reads_outerAttributes_nil _ (by rw [hrest]; rfl)
  obtain ⟨attributed, hattributed, -, hread⟩ := hattrs.of_bind_eq_ok hread
  rw [← hattributed] at hrest
  obtain ⟨between, hbetween, himpl⟩ := implBlock?_of_itemAfter? hrest hread
  obtain ⟨inner, items, leftover, ended, generics, self', hbody', rfl, hfinal⟩ :=
    exists_implItem_of_implBlock? hself hbetween himpl
  obtain ⟨started, hstarted, -, hitems⟩ :=
    (reads_innerAttributes_fnContent contents name params type body).of_bind_eq_ok hbody'
  obtain ⟨items', ended', hitems, hpair⟩ := bind_input_eq_ok_iff.1 hitems
  cases hpair
  have hpieces : started.rest = [fnContent contents name params type body].flatten := by
    simpa using hstarted
  obtain ⟨hfns, -⟩ := forall₂_of_untilEnd (P := fun _ item =>
      ∃ attrs signature stmts start last, start.rest = body ∧
        (Grammar.atDepth depth).stmts start = .ok (stmts, last) ∧
        item = .fnItem (.ofList attrs) .everyone false signature (.present (stmtsBlock stmts)))
    (by
      simp only [List.forall_mem_singleton]
      refine ⟨by simp [fnContent, word], fun hrest hread => ?_⟩
      rw [fnContent, List.append_assoc] at hrest
      obtain ⟨attrs, signature, stmts, start, last, hstart, hstmts, hitem, hfinal⟩ :=
        exists_fnItem_of_readImplItem hname htype hbody hrest hread
      exact ⟨hfinal, attrs, signature, stmts, start, last, hstart, hstmts, hitem⟩)
    hpieces hitems
  obtain ⟨fn, more, ⟨attrs, signature, stmts, start, last, hstart, hstmts, rfl⟩, hmore, rfl⟩ :=
    List.forall₂_cons_left_iff.1 hfns
  obtain rfl := List.forall₂_nil_left_iff.1 hmore
  rw [hitem _ rfl]
  exact ⟨hlast.trans hfinal, .impl hstart hstmts⟩

end Readers

end ForeignWrap.Syntax
