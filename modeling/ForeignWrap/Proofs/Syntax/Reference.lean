import ForeignWrap.Proofs.Method.Retention
import ForeignWrap.Proofs.Syntax.Extent
import ForeignWrap.Proofs.Syntax.Frame

/-!
# References to a type

A text that says a type says a reference to it with an ampersand before it, if it says anything
then: the type inside is read from the same tokens. It is read there as one that no further bounds
may follow, but at the end of a text none do.

## Main definitions

* `ForeignWrap.Syntax.Parser.EndsAs`: a reader that does what another one does up to the end.

## Main statements

* `ForeignWrap.Syntax.tokens_of_typeOf_reference`: how a reference is written.
-/

namespace ForeignWrap

/-! ## Tokens of a reference -/

namespace Code

open Text

/-- Only at the very start of a text is a byte order mark passed over. -/
theorem tokens?_orderMark (fuel : Nat) (inside : Option Delimiter) (rest : List Char) :
    tokens? (fuel + 1) inside ('\uFEFF' :: rest) = none := by
  have hskip : skipSpace ('\uFEFF' :: rest).length ('\uFEFF' :: rest) = '\uFEFF' :: rest := rfl
  have hliteral : afterLiteral? ('\uFEFF' :: rest) = none := rfl
  have hsign : sign? ('\uFEFF' :: rest) = none := rfl
  have hword : word? ('\uFEFF' :: rest) = none := by
    have hname : afterName? ('\uFEFF' :: rest) = afterWord? ('\uFEFF' :: rest) := rfl
    have hstart : isIdentStart '\uFEFF' = false := by decide +kernel
    rw [word?, hname, afterWord?, hstart]
    rfl
  have hleaf : leaf? ('\uFEFF' :: rest) = none := by
    rw [leaf?, hliteral, hsign, hword]
    rfl
  have hdoc : docComment? ('\uFEFF' :: rest) = none := rfl
  have hopens : opens? ('\uFEFF' :: rest) = none := rfl
  have hcloses : closes? '\uFEFF' = none := rfl
  rw [tokens?, hskip]
  simp only [hdoc, hopens, hcloses, hleaf]
  rfl

/-- A text after an ampersand has the tokens that it has alone. -/
theorem lex_reference {text : String} {tokens : List Token} (h : lex ("&" ++ text) = some tokens) :
    ∃ joint more, tokens = .sign '&' joint :: more ∧ lex text = some more := by
  have hchars : ("&" ++ text).toList = '&' :: text.toList := String.toList_append
  have hlex : (tokens? (text.toList.length + 2) none ('&' :: text.toList)).map Prod.fst =
      some tokens := by
    rw [← h, lex, hchars]
    rfl
  rw [tokens?_reference, Option.map_eq_some_iff] at hlex
  obtain ⟨⟨_, after⟩, hlex, rfl⟩ := hlex
  obtain ⟨⟨more, after'⟩, hmore, hlex⟩ := Option.bind_eq_some_iff.1 hlex
  cases hlex
  refine ⟨_, more, rfl, ?_⟩
  have hmark : dropOrderMark text.toList = text.toList := by
    cases hcs : text.toList with
    | nil => rfl
    | cons c rest =>
      refine if_neg fun hc => ?_
      obtain rfl : c = '\uFEFF' := Char.toNat_inj.1 hc
      rw [hcs, tokens?_orderMark] at hmore
      cases hmore
  rw [lex, hmark, hmore]
  rfl

end Code

namespace Syntax

open Code (Delimiter Token)
open Syntax.Parser

namespace Parser

variable {α β : Type}

/-- Where `p` takes all tokens up to the end, `q` does the same. -/
def EndsAs (p q : Parser α) : Prop :=
  ∀ ⦃input final : Input⦄ ⦃a : α⦄, p input = .ok (a, final) → final.rest = [] →
    q input = .ok (a, final)

theorem EndsAs.refl (p : Parser α) : EndsAs p p :=
  fun _ _ _ h _ => h

theorem EndsAs.bind (p : Parser α) {f f' : α → Parser β} (h : ∀ a, EndsAs (f a) (f' a)) :
    EndsAs (p >>= f) (p >>= f') := by
  intro input final b hread hend
  obtain ⟨a, between, hp, hf⟩ := bind_input_eq_ok_iff.1 hread
  exact bind_input_eq_ok_iff.2 ⟨a, between, hp, h a hf hend⟩

theorem EndsAs.ite {condition : Prop} [Decidable condition] {p p' q q' : Parser α}
    (hp : EndsAs p p') (hq : EndsAs q q') :
    EndsAs (if condition then p else q) (if condition then p' else q') := by
  split
  · exact hp
  · exact hq

/-- What only looks at a result leaves the end where it is. -/
theorem EndsAs.followed {p p' : Parser α} {f : α → Parser β} (h : EndsAs p p')
    (hf : ∀ {a input b final}, f a input = .ok (b, final) → final.rest = input.rest) :
    EndsAs (p >>= f) (p' >>= f) := by
  intro input final b hread hend
  obtain ⟨a, between, hp, hlast⟩ := bind_input_eq_ok_iff.1 hread
  exact bind_input_eq_ok_iff.2 ⟨a, between, h hp ((hf hlast).symm.trans hend), hlast⟩

theorem EndsAs.orRaw {raw : List Token → α} {p p' : Parser (Option α)} (h : EndsAs p p') :
    EndsAs (orRaw raw p) (orRaw raw p') := by
  intro input final a hread hend
  rw [orRaw_apply] at hread ⊢
  obtain ⟨⟨result, last⟩, hp, hlast⟩ := bind_eq_ok_iff.1 hread
  have hrest : final.rest = last.rest := by
    cases result <;> (cases hlast; rfl)
  exact bind_eq_ok_iff.2 ⟨_, h hp (hrest.symm.trans hend), hlast⟩

end Parser

/-! ## Types at the end -/

namespace Grammar

variable (g : Grammar)

theorem atOp_nil (signs : String) : atOp signs [] = false := by
  rw [atOp]
  cases signs.toList with
  | nil => rfl
  | cons c cs => cases cs <;> rfl

theorem endsAs_bounds (place : BoundPlace) :
    EndsAs (g.bounds place false) (g.bounds place true) := by
  refine .bind _ fun first => ?_
  intro input final bounds hread hend
  obtain ⟨more, last, hmore, h⟩ := bind_input_eq_ok_iff.1 hread
  cases h
  cases hmore
  refine bind_input_eq_ok_iff.2 ⟨[], input, ?_, rfl⟩
  have hnone : (do
      if !true || !atOp "+" (← ahead) then return none
      op "+"
      if atBound place (← ahead) then return some (← readBound g place) else return none :
        Parser (Option (Tree .bound))) input = .ok (none, input) := by
    refine ahead_bind_eq_ok_iff.2 ?_
    rw [hend, atOp_nil]
    rfl
  exact ahead_bind_eq_ok_iff.2 (bind_input_eq_ok_iff.2 ⟨none, input, hnone, rfl⟩)

/-- Bounds of which one must be a trait. -/
theorem endsAs_traits {place : BoundPlace} {e : SyntaxError} :
    EndsAs (do
        let bounds ← g.bounds place false
        if bounds.any Tree.isTrait then return bounds else throw e : Parser (List (Tree .bound)))
      (do
        let bounds ← g.bounds place true
        if bounds.any Tree.isTrait then return bounds else throw e) := by
  refine (endsAs_bounds g place).followed fun {bounds input b final} h => ?_
  split at h
  · cases h
    rfl
  · cases h

theorem endsAs_objectType : EndsAs (g.objectType false) (g.objectType true) := by
  refine .orRaw (.bind _ fun _ => .bind _ fun star => .followed (endsAs_traits g) fun h => ?_)
  cases h
  rfl

theorem endsAs_parenthesizedType :
    EndsAs (g.parenthesizedType false) (g.parenthesizedType true) := by
  refine .bind _ fun content => ?_
  cases content with
  | type type => exact .refl _
  | bound bound => exact .refl _
  | single type ended =>
    intro input final a hread hend
    cases hread
    refine ahead_bind_eq_ok_iff.2 ?_
    rw [hend, atOp_nil, Bool.and_false]
    rfl

/-- What a path says after which no macro is called: a trait with further bounds, or just the
path. -/
def pathOrObject (plus : Bool) (params : Tree (.maybe (.many .genericParam))) (path : Tree .path)
    (tokens : List Token) : Parser Ty := do
  if params.toOption.isSome || (plus && atOp "+" tokens) then
    let first := Tree.traitBound false false params path
    let more ← if plus then looseBounds g else pure []
    return .objectType false (.ofList (first :: more))
  return .pathType path

theorem pathLikeType_eq (plus : Bool) (params : Tree (.maybe (.many .genericParam))) :
    g.pathLikeType plus params = (do
      let path ← g.qualifiedPath false
      if let .path (.present _) .. := path then return .pathType path
      let tokens ← ahead
      if atBang tokens then
        if let some names := path.names? then return .macroType (← macroCall names)
      g.pathOrObject plus params path tokens) :=
  rfl

theorem looseBounds_of_end {input : Input} (h : input.rest = []) :
    g.looseBounds input = .ok ([], input) := by
  have hplus : op? "+" input = .ok (false, input) := by
    obtain ⟨rest, taken, leftover⟩ := input
    obtain rfl : rest = [] := h
    rfl
  exact ahead_bind_eq_ok_iff.2 (bind_input_eq_ok_iff.2 ⟨none, input,
    bind_input_eq_ok_iff.2 ⟨false, input, hplus, rfl⟩, rfl⟩)

theorem pathOrObject_of_end {params : Tree (.maybe (.many .genericParam))} {path : Tree .path}
    {input final : Input} {type : Ty}
    (h : g.pathOrObject false params path input.rest input = .ok (type, final))
    (hend : final.rest = []) :
    g.pathOrObject true params path input.rest input = .ok (type, final) := by
  unfold pathOrObject at h ⊢
  rw [Bool.false_and, Bool.or_false] at h
  split at h
  case isTrue hparams =>
    cases h
    rw [hparams, Bool.true_or]
    exact bind_input_eq_ok_iff.2 ⟨[], input, looseBounds_of_end g hend, rfl⟩
  case isFalse hparams =>
    cases h
    rw [hend, atOp_nil, Bool.and_false, Bool.or_false, if_neg hparams]
    rfl

theorem endsAs_pathLikeType (params : Tree (.maybe (.many .genericParam))) :
    EndsAs (g.pathLikeType false params) (g.pathLikeType true params) := by
  rw [pathLikeType_eq, pathLikeType_eq]
  refine .bind _ fun path => ?_
  split
  · exact .refl _
  intro input final type hread hend
  have hread := ahead_bind_eq_ok_iff.1 hread
  refine ahead_bind_eq_ok_iff.2 ?_
  split at hread
  case isTrue hbang =>
    rw [if_pos hbang]
    cases hnames : path.names? with
    | none =>
      rw [hnames] at hread
      exact pathOrObject_of_end g hread hend
    | some names =>
      rw [hnames] at hread
      exact hread
  case isFalse hbang =>
    rw [if_neg hbang]
    exact pathOrObject_of_end g hread hend

theorem endsAs_otherType (tokens : List Token) :
    EndsAs (g.otherType false tokens) (g.otherType true tokens) := by
  refine .ite (endsAs_objectType g) (.ite (.refl _) (.bind _ fun _ => .ite (.refl _) ?_))
  refine .bind _ fun _ => .ite (.refl _) (.ite (.refl _) (.bind _ fun _ => .ite ?_ (.refl _)))
  refine .followed (endsAs_traits g) fun h => ?_
  cases h
  rfl

theorem endsAs_readType : EndsAs (g.readType false) (g.readType true) := by
  rw [readType_eq, readType_eq]
  refine .bind _ fun params => .bind _ fun tokens => ?_
  extract_lets rest rest'
  have hrest : ∀ r, EndsAs (rest r) (rest' r) := fun _ =>
    .ite (endsAs_parenthesizedType g) <| .ite (.refl _) <| .ite (.refl _) <|
      .ite (endsAs_pathLikeType g params) (endsAs_otherType g tokens)
  exact .ite (.bind _ hrest) (hrest ())

end Grammar

/-! ## The type inside -/

section Inside

variable {g : Grammar} {plus : Bool} {input final : Input} {type : Ty}

theorem exists_sign_of_atOp {tokens : List Token} (h : atOp "+" tokens = true) :
    ∃ joint more, tokens = .sign '+' joint :: more := by
  cases tokens with
  | nil => cases h
  | cons t more =>
    cases t with
    | sign c joint =>
      by_cases hc : '+' = c
      · exact ⟨joint, more, by rw [hc]⟩
      · simp [atOp, afterOp?, hc] at h
    | _ => cases h

/-- No type begins with a plus sign. -/
theorem readType_ne_ok_of_plus {joint : Bool} {more : List Token}
    (hrest : input.rest = .sign '+' joint :: more) : g.readType plus input ≠ .ok (type, final) := by
  obtain ⟨_, taken, leftover⟩ := input
  obtain rfl := hrest
  rintro ⟨⟩

/-- No type begins with the word that marks a reference. -/
theorem readType_ne_ok_of_mut {more : List Token} (hrest : input.rest = .word "mut" :: more) :
    g.readType plus input ≠ .ok (type, final) := by
  obtain ⟨_, taken, leftover⟩ := input
  obtain rfl := hrest
  rintro ⟨⟩

/-- Of a type that begins with a lifetime, a plus sign and further bounds follow. -/
theorem plus_of_readType_lifetime {name : String} {more : List Token}
    (h : g.readType plus input = .ok (type, final))
    (hrest : input.rest = .sign '\'' true :: .word name :: more) : atOp "+" more = true := by
  obtain ⟨_, taken, leftover⟩ := input
  obtain rfl := hrest
  have hread : g.readType plus ⟨.sign '\'' true :: .word name :: more, taken, leftover⟩ =
      (do return .objectType false (.ofList (← g.objectBounds true)) : Parser Ty)
        ⟨.sign '\'' true :: .word name :: more, taken, leftover⟩ := rfl
  rw [hread] at h
  obtain ⟨_, _, hobject, -⟩ := bind_input_eq_ok_iff.1 h
  obtain ⟨bounds, last, hbounds, htrait⟩ := bind_input_eq_ok_iff.1 hobject
  obtain ⟨first, between, hfirst, hbounds⟩ := bind_input_eq_ok_iff.1 hbounds
  obtain ⟨further, last', hfurther, hbounds⟩ := bind_input_eq_ok_iff.1 hbounds
  cases hbounds
  cases hfirst
  by_contra hplus
  obtain ⟨found, next, hstep, hfurther⟩ := bind_input_eq_ok_iff.1 (ahead_bind_eq_ok_iff.1 hfurther)
  have hstep := ahead_bind_eq_ok_iff.1 hstep
  rw [Bool.not_true, Bool.false_or, if_pos (by simpa using hplus)] at hstep
  cases hstep
  cases hfurther
  -- A lifetime alone is no trait object.
  cases htrait

/-- After the sign of a reference, the tokens of a type are read as the type that is referred to. -/
theorem taken_of_readType_reference (hg : g.FramesTypes) {joint : Bool} {tokens : List Token}
    {elem : Ty} {last : Input} (hinner : g.readType true { rest := tokens } = .ok (elem, last))
    (h : g.around.readType plus { rest := .sign '&' joint :: tokens } = .ok (type, final))
    (hend : final.rest = []) : final.taken = last.taken ++ Code.op "&" := by
  rw [readType_reference] at h
  obtain ⟨lifetime, named, hlifetime, h⟩ := bind_input_eq_ok_iff.1 h
  obtain ⟨mutable, marked, hmutable, h⟩ := bind_input_eq_ok_iff.1 h
  obtain ⟨elem, last, helem, h⟩ := bind_input_eq_ok_iff.1 h
  cases h
  have hnamed : named = ⟨tokens, Code.op "&", none⟩ := by
    have hlifetime := ahead_bind_eq_ok_iff.1 hlifetime
    split at hlifetime
    case isTrue =>
      -- A plus sign would follow the lifetime, and no type begins with it.
      obtain ⟨name, last, hname, hlifetime⟩ := bind_input_eq_ok_iff.1 hlifetime
      cases hlifetime
      obtain ⟨more, hmore, rfl⟩ := lifetime_eq_ok hname
      obtain ⟨joint, more, rfl⟩ := exists_sign_of_atOp
        (plus_of_readType_lifetime hinner hmore)
      cases hmutable
      exact absurd helem (readType_ne_ok_of_plus rfl)
    case isFalse =>
      cases hlifetime
      rfl
  subst hnamed
  obtain ⟨-, rfl, -⟩ | ⟨-, more, hmore, -⟩ := keyword?_eq_ok hmutable
  · have hread := Grammar.endsAs_readType g helem hend
    have hover := Grammar.framed_readType hg true { rest := tokens } (Code.op "&")
    rw [hinner] at hover
    obtain ⟨-, rfl⟩ := Prod.mk.inj (Except.ok.inj (hread.symm.trans hover))
    rfl
  · exact absurd hinner (readType_ne_ok_of_mut hmore)

end Inside

theorem typeOf_eq_ok {text : String} {written : Written .type} (h : typeOf text = .ok written) :
    ∃ tokens last, Code.lex text = some tokens ∧
      (Grammar.atDepth (Code.sizeOf tokens + 1)).readType true { rest := tokens } =
        .ok (written.tree, last) ∧
      last.rest = [] ∧ written.tokens = last.taken.reverse := by
  obtain ⟨tokens, htokens, h⟩ := bind_eq_ok_iff.1 h
  obtain ⟨⟨type, taken⟩, hrun, h⟩ := bind_eq_ok_iff.1 h
  cases h
  obtain ⟨last, hread, hrest, htaken⟩ := run_eq_ok hrun
  refine ⟨tokens, last, ?_, hread, hrest, htaken⟩
  unfold tokensOf at htokens
  split at htokens
  · cases htokens
    assumption
  · cases htokens

/-- **A reference to a type is written as the type after an ampersand**, wherever the text of a type
says a type with an ampersand before it too. -/
theorem tokens_of_typeOf_reference {text : String} {written referred : Written .type}
    (hreferred : typeOf text = .ok referred) (h : typeOf ("&" ++ text) = .ok written) :
    written.tokens = Code.op "&" ++ referred.tokens := by
  obtain ⟨tokens, last, hlex, hread, -, hlast⟩ := typeOf_eq_ok hreferred
  obtain ⟨_, final, hlex', hread', hend, hfinal⟩ := typeOf_eq_ok h
  obtain ⟨joint, more, rfl, hmore⟩ := Code.lex_reference hlex'
  obtain rfl : tokens = more := Option.some.inj (hlex.symm.trans hmore)
  have hdepth : Code.sizeOf (.sign '&' joint :: tokens) + 1 = Code.sizeOf tokens + 1 + 1 := by
    simp
    omega
  rw [hdepth] at hread'
  rw [hfinal, hlast, taken_of_readType_reference (framed_atDepth _) hread hread' hend,
    List.reverse_append]
  rfl

end Syntax

end ForeignWrap
