import ForeignWrap.Proofs.Syntax.ScanType

/-!
# What was taken before

A reader goes by the tokens ahead. Those that were taken before it stay below those that it takes,
and its result does not depend on them. What is read inside a group, or written aside, has nothing
below it in any case.

## Main definitions

* `ForeignWrap.Syntax.Input.over`: an input with other tokens taken before all that it has.
* `ForeignWrap.Syntax.Parser.Framed`: what was taken before does not matter to a reader.

## Main statements

* `ForeignWrap.Syntax.framed_atDepth`: types of any depth are read so.
-/

namespace ForeignWrap.Syntax

open Code (Delimiter Token)

/-- An input with the tokens `base` taken before all that it has. -/
def Input.over (input : Input) (base : List Token) : Input :=
  { input with taken := input.taken ++ base }

/-- What was taken before does not matter to a reader, which leaves it as it was. -/
def Parser.Framed {α : Type} (p : Parser α) : Prop :=
  ∀ (input : Input) (base : List Token),
    p (input.over base) = (p input).map fun (a, final) => (a, final.over base)

namespace Parser

variable {α β : Type}

/-! ## Steps -/

theorem framed_pure (a : α) : Framed (pure a : Parser α) :=
  fun _ _ => rfl

theorem Framed.bind {p : Parser α} {f : α → Parser β} (hp : Framed p) (hf : ∀ a, Framed (f a)) :
    Framed (p >>= f) := by
  intro input base
  have hrun : ∀ input, (p >>= f) input = p input >>= fun (a, between) => f a between := fun _ => rfl
  rw [hrun, hrun, hp]
  cases p input with
  | error e => rfl
  | ok result => exact hf result.1 result.2 base

theorem Framed.ite {condition : Prop} [Decidable condition] {p q : Parser α} (hp : Framed p)
    (hq : Framed q) : Framed (if condition then p else q) := by
  split
  · exact hp
  · exact hq

/-- One of two readers comes first, and the same ones after it. -/
theorem Framed.branch {condition : Prop} [Decidable condition] {p q : Parser α}
    {next : α → Parser β} (hp : Framed p) (hq : Framed q) (hnext : ∀ a, Framed (next a)) :
    Framed (if condition then p >>= next else q >>= next) :=
  (hp.bind hnext).ite (hq.bind hnext)

/-- A check may come before what is read in any case. -/
theorem Framed.check {condition : Prop} [Decidable condition] {p : Parser Unit}
    {next : Unit → Parser β} (hp : Framed p) (hnext : ∀ a, Framed (next a)) :
    Framed (if condition then p >>= next else next ()) :=
  (hp.bind hnext).ite (hnext ())

theorem framed_throw (e : SyntaxError) : Framed (throw e : Parser α) :=
  fun _ _ => rfl

theorem framed_ahead : Framed ahead :=
  fun _ _ => rfl

theorem framed_atEnd : Framed atEnd :=
  framed_ahead.bind fun _ => framed_pure _

theorem framed_expected (wanted : List String) : Framed (expected wanted : Parser α) :=
  framed_atEnd.bind fun _ => framed_throw _

theorem framed_advance (tokens rest : List Token) : Framed (advance tokens rest) := fun _ _ => by
  simp [advance, Input.over, modify, modifyGet, MonadStateOf.modifyGet, StateT.modifyGet, pure,
    Except.pure, Except.map]

theorem framed_write (tokens : List Token) : Framed (write tokens) := fun _ _ => by
  simp [write, Input.over, modify, modifyGet, MonadStateOf.modifyGet, StateT.modifyGet, pure,
    Except.pure, Except.map]

/-! ## Tokens -/

theorem framed_op (signs : String) : Framed (op signs) := by
  refine framed_ahead.bind fun tokens => ?_
  split
  · exact framed_advance _ _
  · exact framed_throw _

theorem framed_op? (signs : String) : Framed (op? signs) := by
  refine framed_ahead.bind fun tokens => ?_
  split
  · exact (framed_advance _ _).bind fun _ => framed_pure _
  · exact framed_pure _

theorem framed_keyword (text : String) : Framed (keyword text) := by
  refine framed_ahead.bind fun tokens => ?_
  split
  · exact (framed_advance _ _).ite (framed_expected _)
  · exact framed_expected _

theorem framed_keyword? (text : String) : Framed (keyword? text) := by
  refine framed_ahead.bind fun tokens => ?_
  split
  · exact ((framed_advance _ _).bind fun _ => framed_pure _).ite (framed_pure _)
  · exact framed_pure _

theorem framed_name : Framed name := by
  refine framed_ahead.bind fun tokens => ?_
  split
  · exact ((framed_advance _ _).bind fun _ => framed_pure _).ite (framed_throw _)
  · exact framed_expected _

theorem framed_anyWord : Framed anyWord := by
  refine framed_ahead.bind fun tokens => ?_
  split
  · exact (framed_advance _ _).bind fun _ => framed_pure _
  · exact framed_expected _

theorem framed_lifetime : Framed lifetime := by
  refine framed_ahead.bind fun tokens => ?_
  split
  · exact (framed_advance _ _).bind fun _ => framed_pure _
  · exact framed_expected _

theorem framed_lifetime? : Framed lifetime? :=
  framed_ahead.bind fun _ => (framed_lifetime.bind fun _ => framed_pure _).ite (framed_pure _)

theorem framed_literal : Framed literal := by
  refine framed_ahead.bind fun tokens => ?_
  split
  · exact (framed_advance _ _).bind fun _ => framed_pure _
  · exact ((framed_advance _ _).bind fun _ => framed_pure _).ite (framed_expected _)
  · exact ((framed_advance _ _).bind fun _ => framed_pure _).ite (framed_expected _)
  · exact framed_expected _

theorem framed_string? : Framed string? :=
  framed_ahead.bind fun _ => (framed_literal.bind fun _ => framed_pure _).ite (framed_pure _)

theorem framed_anyGroup : Framed anyGroup := by
  refine framed_ahead.bind fun tokens => ?_
  split
  · exact (framed_advance _ _).bind fun _ => framed_pure _
  · exact framed_expected _

/-! ## What stands apart -/

/-- The content of a group has nothing below it. -/
theorem framed_inside (delimiter : Delimiter) (content : Parser α) :
    Framed (inside delimiter content) := by
  rintro ⟨tokens, taken, leftover⟩ base
  cases tokens with
  | nil => rfl
  | cons t rest =>
    cases t with
    | group d tokens =>
      by_cases hd : d = delimiter
      · subst hd
        rw [Input.over, inside_group, inside_group]
        cases content ⟨tokens, [], leftover⟩ <;> rfl
      · have hother : ∀ taken, inside delimiter content ⟨.group d tokens :: rest, taken, leftover⟩ =
            expected [groupName delimiter] ⟨.group d tokens :: rest, taken, leftover⟩ :=
          fun _ => congrFun (if_neg hd) _
        rw [Input.over, hother, hother]
        exact framed_expected _ ⟨.group d tokens :: rest, taken, leftover⟩ base
    | _ => rfl

/-- What is written aside has nothing below it. -/
theorem framed_capture (p : Parser α) : Framed (capture p) := by
  intro input base
  rw [capture_apply, capture_apply, Input.over]
  cases p { input with taken := [] } <;> rfl

/-- Tokens that are kept as they were written are put above what was taken before them. -/
theorem Framed.asWritten {p : Parser α} (hp : Framed p) : Framed (asWritten p) := by
  intro input base
  rw [asWritten_apply, asWritten_apply, hp]
  cases p input with
  | error e => rfl
  | ok result =>
    obtain ⟨a, last⟩ := result
    let kept := input.rest.take (input.rest.length - last.rest.length)
    exact congrArg (fun taken => Except.ok ((a, kept), { last with taken }))
      (List.append_assoc kept.reverse input.taken base).symm

theorem Framed.orRaw {raw : List Token → α} {p : Parser (Option α)} (hp : Framed p) :
    Framed (orRaw raw p) := by
  intro input base
  rw [orRaw_apply, orRaw_apply, hp]
  cases p input with
  | error e => rfl
  | ok result =>
    obtain ⟨_ | a, last⟩ := result
    · let kept := input.rest.take (input.rest.length - last.rest.length)
      exact congrArg (fun taken => Except.ok (raw kept, { last with taken }))
        (List.append_assoc kept.reverse input.taken base).symm
    · rfl

theorem Framed.collectUpTo {step : Parser (Option α)} (hstep : Framed step) (bound : Nat) :
    Framed (collectUpTo step bound) := by
  induction bound with
  | zero => exact framed_pure _
  | succ bound ih =>
    refine hstep.bind fun found => ?_
    cases found with
    | none => exact framed_pure _
    | some a => exact ih.bind fun _ => framed_pure _

theorem Framed.collect {step : Parser (Option α)} (hstep : Framed step) : Framed (collect step) :=
  framed_ahead.bind fun _ => hstep.collectUpTo _

/-- Things between angle brackets are written aside one by one. -/
theorem framed_angled (isLifetime : α → Bool) (item : Parser α) :
    Framed (angled isLifetime item) := by
  refine (framed_op _).bind fun _ => Framed.bind ?_ fun _ => (framed_write _).bind fun _ =>
    (framed_op _).bind fun _ => framed_pure _
  refine Framed.collect (framed_ahead.bind fun _ => (framed_pure _).ite ?_)
  exact (framed_capture _).bind fun _ => (framed_capture _).bind fun _ => framed_pure _

end Parser

/-! ## Types -/

/-- Types are read by what is ahead. -/
def Grammar.FramesTypes (g : Grammar) : Prop :=
  ∀ plus, (g.type plus).Framed

namespace Grammar

open Syntax.Parser

variable {g : Grammar}

theorem framed_forParams? : g.forParams?.Framed := by
  refine (framed_keyword? _).bind fun found => .ite (framed_pure _) ?_
  exact (framed_angled _ _).bind fun _ => framed_pure _

theorem framed_segment (inExpr : Bool) : (g.segment inExpr).Framed := by
  refine framed_ahead.bind fun tokens => .ite (framed_anyWord.bind fun _ => framed_pure _) ?_
  refine .branch framed_anyWord framed_name fun _ => framed_ahead.bind fun _ =>
    .ite ?_ (framed_pure _)
  exact (framed_op? _).bind fun _ => (framed_angled _ _).bind fun _ => framed_pure _

theorem framed_moreSegments (inExpr : Bool) : (g.moreSegments inExpr).Framed := by
  refine .collect (framed_ahead.bind fun _ => .ite (framed_pure _) ?_)
  exact (framed_op _).bind fun _ => (framed_segment _).bind fun _ => framed_pure _

theorem framed_pathParts (inExpr : Bool) : (g.pathParts inExpr).Framed :=
  (framed_op? _).bind fun _ => (framed_segment _).bind fun _ =>
    (framed_moreSegments _).bind fun _ => framed_pure _

theorem framed_path (inExpr : Bool) : (g.path inExpr).Framed :=
  (framed_pathParts _).bind fun _ => framed_pure _

theorem framed_seenAs : g.seenAs.Framed :=
  (framed_keyword? _).bind fun _ => (framed_pathParts _).ite (framed_pure _)

theorem framed_qualifiedPath (hg : g.FramesTypes) (inExpr : Bool) :
    (g.qualifiedPath inExpr).Framed := by
  refine framed_ahead.bind fun _ => .ite (framed_path _) ?_
  refine (framed_op _).bind fun _ => (hg true).bind fun _ => framed_seenAs.bind fun _ =>
    (framed_op _).bind fun _ => (framed_op _).bind fun _ => (framed_segment _).bind fun _ =>
    .bind (.collect ?_) fun _ => framed_pure _
  exact (framed_op? _).bind fun _ => .ite (framed_pure _)
    ((framed_segment _).bind fun _ => framed_pure _)

/-! ### Bounds -/

theorem framed_arrowType? (hg : g.FramesTypes) (plus : Bool) : (g.arrowType? plus).Framed :=
  (framed_op? _).bind fun _ => .ite ((hg plus).bind fun _ => framed_pure _) (framed_pure _)

theorem framed_withCallArgs (hg : g.FramesTypes) (segments : List (Tree .segment)) :
    (g.withCallArgs segments).Framed := by
  refine framed_ahead.bind fun _ => .ite (framed_pure _) ?_
  split
  · exact (framed_capture _).bind fun _ => (framed_inside _ _).bind fun _ =>
      (framed_arrowType? hg _).bind fun _ => framed_pure _
  · exact (framed_capture _).bind fun _ => (framed_inside _ _).bind fun _ =>
      (framed_arrowType? hg _).bind fun _ => framed_pure _
  · exact framed_pure _

theorem framed_constMark? : constMark?.Framed := by
  refine framed_ahead.bind fun _ => .ite ((framed_inside _ _).bind fun _ => framed_pure _) ?_
  exact (framed_keyword? _).bind fun _ => (framed_pure _).ite (framed_pure _)

theorem framed_traitBound? (hg : g.FramesTypes) (place : BoundPlace) (parenthesized : Bool) :
    (g.traitBound? place parenthesized).Framed := by
  refine framed_forParams?.bind fun early => framed_constMark?.bind fun mark => ?_
  extract_lets rest
  have hrest : ∀ r, (rest r).Framed := fun _ => (framed_op? _).bind fun _ =>
    .branch framed_forParams? (framed_pure _) fun _ => (framed_pathParts _).bind fun _ =>
    (framed_withCallArgs hg _).bind fun _ => .check (framed_throw _) fun _ =>
    (framed_pure _).ite (framed_pure _)
  cases mark with
  | none => exact hrest ()
  | some mark => exact .check (framed_throw _) hrest

theorem framed_readBound (hg : g.FramesTypes) (place : BoundPlace) :
    (g.readBound place).Framed := by
  refine framed_ahead.bind fun _ => .ite (framed_lifetime.bind fun _ => framed_pure _) ?_
  refine (framed_keyword? _).bind fun _ => .ite ?_ (.orRaw ?_)
  · exact (framed_angled _ _).bind fun _ => .ite (framed_pure _) (framed_throw _)
  · exact .ite (framed_inside _ _) (framed_traitBound? hg _ _)

theorem framed_bounds (hg : g.FramesTypes) (place : BoundPlace) (plus : Bool) :
    (g.bounds place plus).Framed := by
  refine (framed_readBound hg place).bind fun _ => .bind (.collect ?_) fun _ => framed_pure _
  refine framed_ahead.bind fun _ => .ite (framed_pure _) ((framed_op _).bind fun _ => ?_)
  exact framed_ahead.bind fun _ =>
    .ite ((framed_readBound hg place).bind fun _ => framed_pure _) (framed_pure _)

theorem framed_objectBounds (hg : g.FramesTypes) (plus : Bool) : (g.objectBounds plus).Framed :=
  (framed_bounds hg _ _).bind fun _ => .ite (framed_pure _) (framed_throw _)

theorem framed_implBounds (hg : g.FramesTypes) (plus : Bool) : (g.implBounds plus).Framed :=
  (framed_bounds hg _ _).bind fun _ => .ite (framed_pure _) (framed_throw _)

theorem framed_plusBounds (hg : g.FramesTypes) : g.plusBounds.Framed :=
  .collect <| (framed_op? _).bind fun _ => .ite (framed_pure _)
    ((framed_readBound hg _).bind fun _ => framed_pure _)

theorem framed_looseBounds (hg : g.FramesTypes) : g.looseBounds.Framed :=
  .collect <| (framed_op? _).bind fun _ => .ite (framed_pure _) <| framed_ahead.bind fun _ =>
    .ite ((framed_readBound hg _).bind fun _ => framed_pure _) (framed_pure _)

/-! ### Kinds of types -/

theorem framed_parenthesizedType (hg : g.FramesTypes) (plus : Bool) :
    (g.parenthesizedType plus).Framed := by
  have hmore := framed_plusBounds hg
  refine (framed_inside _ _).bind fun content => ?_
  cases content with
  | type type => exact framed_pure _
  | bound bound => exact hmore.bind fun _ => framed_pure _
  | single type ended =>
    refine framed_ahead.bind fun _ => .ite ?_ (framed_pure _)
    cases parenthesizedBound? type with
    | none => exact framed_pure _
    | some bound => exact hmore.bind fun _ => framed_pure _

theorem framed_abi? : abi?.Framed :=
  (framed_keyword? _).bind fun _ =>
    .ite (framed_string?.bind fun _ => framed_pure _) (framed_pure _)

theorem framed_functionType (hg : g.FramesTypes) (params : Tree (.maybe (.many .genericParam))) :
    (g.functionType params).Framed :=
  framed_forParams?.bind fun _ => (framed_keyword? _).bind fun _ => framed_abi?.bind fun _ =>
    (framed_keyword _).bind fun _ => (framed_inside _ _).bind fun _ =>
    (framed_arrowType? hg _).bind fun _ => framed_pure _

theorem framed_macroCall (path : NamePath) : (macroCall path).Framed :=
  (framed_op _).bind fun _ => framed_anyGroup.bind fun _ => framed_pure _

theorem framed_pathLikeType (hg : g.FramesTypes) (plus : Bool)
    (params : Tree (.maybe (.many .genericParam))) : (g.pathLikeType plus params).Framed := by
  refine (framed_qualifiedPath hg _).bind fun path => ?_
  split
  · exact framed_pure _
  refine framed_ahead.bind fun tokens => ?_
  extract_lets first object rest
  have hrest : ∀ r, (rest r).Framed := fun _ =>
    .ite (.branch (framed_looseBounds hg) (framed_pure _) fun _ => framed_pure _) (framed_pure _)
  refine .ite ?_ (hrest ())
  cases path.names? with
  | none => exact hrest ()
  | some names => exact (framed_macroCall names).bind fun _ => framed_pure _

theorem framed_objectType (hg : g.FramesTypes) (plus : Bool) : (g.objectType plus).Framed :=
  .orRaw <| (framed_keyword _).bind fun _ => (framed_op? _).bind fun _ =>
    (framed_objectBounds hg plus).bind fun _ => framed_pure _

theorem framed_builtin : builtin.Framed :=
  (framed_keyword _).bind fun _ => (framed_op _).bind fun _ => framed_name.bind fun _ =>
    framed_ahead.bind fun _ =>
    .ite (framed_expected _) (framed_anyGroup.bind fun _ => framed_pure _)

theorem framed_otherType (hg : g.FramesTypes) (plus : Bool) (tokens : List Token) :
    (g.otherType plus tokens).Framed := by
  have helem := hg false
  refine .ite (framed_objectType hg plus) (.ite (framed_inside _ _) ?_)
  refine (framed_op? _).bind fun _ => .ite ?_ ?_
  · refine (framed_keyword? _).bind fun _ => .ite (helem.bind fun _ => framed_pure _) ?_
    exact (framed_keyword? _).bind fun _ =>
      .ite (helem.bind fun _ => framed_pure _) (framed_expected _)
  refine (framed_op? _).bind fun _ => .ite ?_ ?_
  · exact framed_lifetime?.bind fun _ => (framed_keyword? _).bind fun _ =>
      helem.bind fun _ => framed_pure _
  refine .ite ((framed_op _).bind fun _ => framed_pure _) ?_
  refine (framed_keyword? _).bind fun _ =>
    .ite ((framed_implBounds hg plus).bind fun _ => framed_pure _) ?_
  refine (framed_keyword? _).bind fun _ => .ite (framed_pure _) ?_
  exact .ite ((framed_objectBounds hg true).bind fun _ => framed_pure _) (framed_expected _)

theorem framed_typeAfterFor (hg : g.FramesTypes) (plus : Bool)
    (params : Tree (.maybe (.many .genericParam))) (tokens : List Token) :
    (g.typeAfterFor plus params tokens).Framed := by
  refine .ite (framed_parenthesizedType hg plus) (.ite (framed_functionType hg params) ?_)
  refine .ite (framed_builtin.asWritten.bind fun _ => framed_pure _) ?_
  exact .ite (framed_pathLikeType hg plus params) (framed_otherType hg plus tokens)

/-- A type is read by what is ahead, if the types inside it are. -/
theorem framed_readType (hg : g.FramesTypes) (plus : Bool) : (g.readType plus).Framed := by
  rw [readType_eq]
  refine framed_forParams?.bind fun _ => framed_ahead.bind fun _ => ?_
  exact .check (framed_expected _) fun _ => framed_typeAfterFor hg plus _ _

end Grammar

/-- Types of any depth are read by what is ahead. -/
theorem framed_atDepth (depth : Nat) : (Grammar.atDepth depth).FramesTypes := by
  induction depth with
  | zero => exact fun _ => Parser.framed_throw _
  | succ depth ih => exact Grammar.framed_readType ih

end ForeignWrap.Syntax
