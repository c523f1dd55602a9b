import ForeignWrap.Proofs.Syntax.ScanType

/-!
# How far a type reaches

A block in braces can only be a value between angle brackets or the content of a macro, and where a
type has come to its end neither is possible. So whatever type is read in front of a block, it ends
there, and nothing else is found between them.

## Main definitions

* `ForeignWrap.Syntax.Mark.Completes`: some tokens are a whole type.

## Main statements

* `ForeignWrap.Syntax.isWhole_of_typeOf_eq_ok`: a type that a text says is whole.
* `ForeignWrap.Syntax.stopsBefore_of_type_eq_ok`: where the reading of a type ends before a block.
-/

namespace ForeignWrap.Syntax

open Code (Delimiter Token)
open Syntax.Parser

namespace Mark

/-- Where a whole type has ended. -/
def ends : List Mark :=
  [plus, word, shut, closed, never]

/-- From this mark the tokens are a whole type. -/
def Completes (mark : Mark) (tokens : List Token) : Prop :=
  ∃ last ∈ ends, Nesting.run (mark, []) tokens = some (last, [])

/-- Nothing that follows a type takes a block in braces. -/
theorem step_brace_eq_none {last : Mark} (hlast : last ∈ opened :: ends) (content : List Token) :
    Nesting.step (last, []) (.group .brace content) = none := by
  cases last <;> first | rfl | exact absurd hlast (by decide)

/-- What can be followed in front of a block is part of the type there. -/
theorem exists_eq_append_of_block {mark last : Mark} {nesting : Nesting}
    {tokens used rest content after : List Token}
    (hrun : Nesting.run (mark, []) tokens = some (last, [])) (hlast : last ∈ opened :: ends)
    (hused : Nesting.run (mark, []) used = some nesting)
    (h : tokens ++ .group .brace content :: after = used ++ rest) :
    ∃ more, tokens = used ++ more ∧ rest = more ++ .group .brace content :: after := by
  obtain ⟨more, hmore, hafter⟩ | ⟨more, hmore, hrest⟩ := List.append_eq_append_iff.1 h
  · cases more with
    | nil => exact ⟨[], by simpa using hmore.symm, by simpa using hafter.symm⟩
    | cons t more =>
      obtain ⟨rfl, -⟩ := List.cons.inj hafter
      rw [hmore, Nesting.run_append, hrun, Option.bind_some, Nesting.run,
        step_brace_eq_none hlast] at hused
      cases hused
  · exact ⟨more, hmore, hrest⟩

theorem step_never (open_ : List Bool) (t : Token) : Nesting.step (never, open_) t = none := by
  cases t with
  | sign c joint => simp [Nesting.step, Nesting.bracket, next, settled, steady]
  | _ => rfl

theorem nextSign_opened_of_shut {c : Char} {mark : Mark} (h : nextSign shut c = some mark) :
    nextSign opened c = some mark := by
  have hbang : c ≠ '!' := by
    rintro rfl
    cases h
  have hquestion : c ≠ '?' := by
    rintro rfl
    cases h
  simpa [nextSign, hbang, hquestion] using h

/-- After an angle bracket that has ended something, less may come than after what begins
something. -/
theorem step_opened_of_step_shut {open_ : List Bool} {t : Token} {nesting : Nesting}
    (h : Nesting.step (shut, open_) t = some nesting) :
    Nesting.step (opened, open_) t = some nesting := by
  cases t with
  | word text =>
    have hfor : text ≠ "for" := by
      rintro rfl
      cases h
    have hconst : text ≠ "const" := by
      rintro rfl
      cases h
    simpa [Nesting.step, next, nextWord, hfor, hconst] using h
  | sign c joint =>
    by_cases hangle : c ∈ ['<', '>']
    · obtain rfl | rfl : c = '<' ∨ c = '>' := by simpa using hangle
      all_goals exact h
    · simp only [Nesting.step, hangle, false_and, if_false] at h ⊢
      obtain ⟨mark, hmark, rfl⟩ := Option.map_eq_some_iff.1 h
      exact Option.map_eq_some_iff.2 ⟨mark, nextSign_opened_of_shut hmark, rfl⟩
  | literal text => exact h
  | group delimiter content => cases delimiter <;> exact h

/-- What can be followed after a type is no further part of an item. -/
theorem not_follows_of_done {mark : Mark} {open_ : List Bool} {t : Token} {more : List Token}
    {nesting : Nesting} (hdone : Place.Done mark (t :: more))
    (hstep : Nesting.step (mark, open_) t = some nesting) :
    t ≠ .word "for" ∧ t ≠ .word "where" ∧ (∀ content, t ≠ .group .brace content) ∧
      ∀ joint, t ≠ .sign ';' joint := by
  obtain hclosed | ⟨rfl, hword⟩ := hdone
  · have hmark : mark = word ∨ mark = shut ∨ mark = closed := by
      simpa [Place.Among] using hclosed
    refine ⟨?_, ?_, fun content => ?_, fun joint => ?_⟩ <;> rintro rfl <;>
      obtain rfl | rfl | rfl := hmark <;> cases hstep
  · refine ⟨?_, ?_, fun content => ?_, fun joint => ?_⟩ <;> rintro rfl
    · cases hword
    · cases hword
    · cases hstep
    · cases hstep

end Mark

/-- What follows a reader that reads something certain goes on with it. -/
theorem Parser.Reads.of_bind_eq_ok {α β : Type} {p : Parser α} {f : α → Parser β} {a : α} {b : β}
    {rest : List Token} {input final : Input} (hp : Reads p input.rest a rest)
    (h : (p >>= f) input = .ok (b, final)) :
    ∃ between, between.rest = rest ∧ between.leftover = input.leftover ∧
      f a between = .ok (b, final) := by
  obtain ⟨a', between, hread, h⟩ := bind_input_eq_ok_iff.1 h
  obtain ⟨rfl, hrest, hleftover⟩ := hp.eq_of_eq_ok hread
  exact ⟨between, hrest, hleftover, h⟩

/-! ## In front of a block -/

/-- Right before a block, or before something that an item does not go on with after a type. -/
def StopsBefore (block : Token) (after rest : List Token) : Prop :=
  rest = block :: after ∨ ∃ t more, rest = t :: more ∧ t ≠ .word "for" ∧ t ≠ .word "where" ∧
    (∀ content, t ≠ .group .brace content) ∧ ∀ joint, t ≠ .sign ';' joint

section Readers

variable {g : Grammar} {input final : Input} {content after : List Token}

/-- A type in front of a block stops before it. -/
theorem stopsBefore_of_type_eq_ok (hg : g.Scanned) {plus : Bool} {tokens : List Token} {type : Ty}
    (htokens : tokens = [] ∨ Mark.opened.Completes tokens)
    (hrest : input.rest = tokens ++ .group .brace content :: after)
    (h : g.type plus input = .ok (type, final)) :
    StopsBefore (.group .brace content) after final.rest := by
  obtain ⟨last, hlast, hrun⟩ : ∃ last ∈ Mark.opened :: Mark.ends,
      Mark.Nesting.run (.opened, []) tokens = some (last, []) := by
    obtain rfl | ⟨last, hlast, hrun⟩ := htokens
    · exact ⟨.opened, List.mem_cons_self, rfl⟩
    · exact ⟨last, List.mem_cons_of_mem _ hlast, hrun⟩
  obtain ⟨used, written, hused, -, hscans⟩ := hg.type h
  obtain ⟨⟨mark, hleads, hdone⟩, -⟩ := hscans .opened (.inl List.mem_cons_self)
  obtain ⟨more, rfl, hmore⟩ :=
    Mark.exists_eq_append_of_block hrun hlast (hleads []) (hrest.symm.trans hused)
  cases more with
  | nil => exact .inl hmore
  | cons t more =>
    rw [Mark.Nesting.run_append, hleads, Option.bind_some, Mark.Nesting.run] at hrun
    obtain ⟨nesting, hstep, -⟩ := Option.bind_eq_some_iff.1 hrun
    rw [hmore, List.cons_append] at hdone
    exact .inr ⟨t, _, hmore, Mark.not_follows_of_done hdone hstep⟩

theorem StopsBefore.keyword?_for {found : Bool} {block : Token}
    (hstops : StopsBefore block after input.rest)
    (hblock : ∃ content, block = .group .brace content)
    (h : keyword? "for" input = .ok (found, final)) : found = false ∧ final = input := by
  obtain ⟨rfl, rfl, -⟩ | ⟨rfl, rest, hrest, -⟩ := keyword?_eq_ok h
  · exact ⟨rfl, rfl⟩
  · obtain ⟨content, rfl⟩ := hblock
    rw [hrest] at hstops
    obtain hblock | ⟨t, more, htokens, hfor, -⟩ := hstops
    · cases hblock
    · exact absurd (List.cons.inj htokens).1.symm hfor

theorem StopsBefore.conditions {conditions : List (Tree .condition)} {block : Token}
    (hstops : StopsBefore block after input.rest)
    (hblock : ∃ content, block = .group .brace content)
    (h : g.conditions input = .ok (conditions, final)) : final = input := by
  obtain ⟨found, last, hfound, h⟩ := bind_input_eq_ok_iff.1 h
  cases h
  have hfound := ahead_bind_eq_ok_iff.1 hfound
  have hwhere : atWord "where" input.rest = false := by
    obtain ⟨content, rfl⟩ := hblock
    obtain hblock | ⟨t, more, htokens, -, hwhere, -⟩ := hstops
    · rw [hblock]
      rfl
    · rw [htokens]
      cases t <;> simp_all [atWord]
  simp only [hwhere, Bool.not_false, if_true] at hfound
  cases hfound
  rfl

/-- What stands between braces after a type is the block. -/
theorem StopsBefore.inside {α : Type} {p : Parser α} {a : α}
    (hstops : StopsBefore (.group .brace content) after input.rest)
    (h : inside .brace p input = .ok (a, final)) :
    ∃ inner, p ⟨content, [], input.leftover⟩ = .ok (a, inner) ∧ final.rest = after := by
  obtain ⟨content', inner, rest, hrest, hp, rfl, -⟩ := inside_eq_ok h
  rw [hrest] at hstops
  obtain hblock | ⟨t, more, htokens, -, -, hbrace, -⟩ := hstops
  · obtain ⟨hcontent, rfl⟩ := List.cons.inj hblock
    cases hcontent
    exact ⟨inner, hp, rfl⟩
  · exact absurd (List.cons.inj htokens).1.symm (hbrace content')

/-! ## The head of an impl block -/

/-- From either of these marks the tokens are a whole type, or none are left of it. -/
structure IsRemainder (tokens : List Token) : Prop where
  completes : ∃ mark ∈ [Mark.start, .shut], mark.Completes tokens
  opened : tokens = [] ∨ Mark.opened.Completes tokens

/-- The tokens are a whole type, both where a type begins and where any code does. -/
structure IsWhole (tokens : List Token) : Prop where
  start : Mark.start.Completes tokens
  opened : Mark.opened.Completes tokens

theorem IsWhole.isRemainder {tokens : List Token} (h : IsWhole tokens) : IsRemainder tokens :=
  ⟨⟨.start, List.mem_cons_self, h.start⟩, .inr h.opened⟩

theorem run_eq_ok {α : Type} {p : Parser α} {tokens written : List Token} {a : α}
    (h : Parser.run p tokens = .ok (a, written)) :
    ∃ last : Input, p ⟨tokens, [], none⟩ = .ok (a, last) ∧ last.rest = [] ∧
      written = last.taken.reverse := by
  obtain ⟨⟨a', last⟩, hread, h⟩ := bind_eq_ok_iff.1 h
  cases hleftover : last.leftover with
  | some delimiter =>
    simp only [hleftover] at h
    cases h
  | none =>
    simp only [hleftover] at h
    cases hrest : last.rest with
    | nil =>
      simp only [hrest] at h
      cases h
      exact ⟨last, hread, hrest, rfl⟩
    | cons t rest =>
      simp only [hrest] at h
      cases h

/-- A type that a text says is whole. -/
theorem isWhole_of_typeOf_eq_ok {text : String} {type : Written .type}
    (h : typeOf text = .ok type) : IsWhole type.tokens := by
  obtain ⟨tokens, -, h⟩ := bind_eq_ok_iff.1 h
  obtain ⟨⟨tree, written⟩, hrun, h⟩ := bind_eq_ok_iff.1 h
  cases h
  obtain ⟨last, hread, hrest, rfl⟩ := run_eq_ok hrun
  have hcompletes : ∀ {mark}, Place.Fresh mark tokens → mark = .start ∨ mark = .opened →
      mark.Completes last.taken.reverse := by
    intro mark hfresh hmark
    obtain ⟨used, written, -, htaken, hscans⟩ | hbang := scans_readType (scanned_atDepth _) hread
    · obtain ⟨-, end_, hleads, hdone⟩ := hscans mark hfresh
      have hend : end_ ∈ Mark.ends := by
        obtain hclosed | ⟨rfl, -⟩ := hdone
        · exact hclosed.mono (by decide)
        · decide
      exact ⟨end_, hend, by simpa [htaken] using hleads []⟩
    · obtain ⟨joint, rest, -, rfl⟩ := op_eq_ok_of_sign (c := '!') rfl hbang
      obtain rfl | rfl := hmark
      · exact ⟨.never, by decide, rfl⟩
      · exact ⟨.closed, by decide, rfl⟩
  exact ⟨hcompletes (.inl rfl) (.inl rfl), hcompletes (.inr (.inl List.mem_cons_self)) (.inr rfl)⟩

/-- What is left of a type after generic parameters have been read off it. -/
theorem IsWhole.isRemainder_of_genericParams {depth : Nat} {tokens : List Token}
    {params : List (Tree .genericParam)} (htokens : IsWhole tokens)
    (hrest : input.rest = tokens ++ .group .brace content :: after)
    (h : (Grammar.atDepth depth).genericParams input = .ok (params, final)) :
    ∃ more, IsRemainder more ∧ final.rest = more ++ .group .brace content :: after := by
  obtain ⟨rfl, -⟩ | ⟨used, hused, hleads⟩ := exists_used_of_genericParams (scanned_atDepth depth) h
  · exact ⟨tokens, htokens.isRemainder, hrest⟩
  · obtain ⟨last, hlast, hrun⟩ := htokens.start
    obtain ⟨more, rfl, hmore⟩ := Mark.exists_eq_append_of_block hrun
      (List.mem_cons_of_mem _ hlast) (hleads .start (by decide) []) (hrest.symm.trans hused)
    rw [Mark.Nesting.run_append, hleads .start (by decide) [], Option.bind_some] at hrun
    refine ⟨more, ⟨⟨.shut, by decide, last, hlast, hrun⟩, ?_⟩, hmore⟩
    cases more with
    | nil => exact .inl rfl
    | cons t more =>
      obtain ⟨nesting, hstep, hrest⟩ := Option.bind_eq_some_iff.1 hrun
      refine .inr ⟨last, hlast, ?_⟩
      rw [Mark.Nesting.run, Mark.step_opened_of_step_shut hstep, Option.bind_some, hrest]

/-- Neither the mark of a constant implementation nor that of a negative one begins a type. -/
theorem IsRemainder.not_marked {tokens : List Token} (h : IsRemainder tokens)
    (content after : List Token) :
    let tokens := tokens ++ .group .brace content :: after
    (atWord "const" tokens || (atOp "?" tokens && atWord "const" (skip tokens))) = false ∧
      (atOp "!" tokens && !atGroup .brace (skip tokens)) = false := by
  obtain ⟨mark, hmark, last, hlast, hrun⟩ := h.completes
  cases tokens with
  | nil => exact ⟨rfl, rfl⟩
  | cons t more =>
    obtain ⟨nesting, hstep, hmore⟩ := Option.bind_eq_some_iff.1 hrun
    have hmark : mark = .start ∨ mark = .shut := by simpa using hmark
    cases t with
    | word text =>
      have htext : text ≠ "const" := by
        rintro rfl
        obtain rfl | rfl := hmark <;> cases hstep
      simp [atWord, atOp, afterOp?, htext]
    | sign c joint =>
      have hquestion : c ≠ '?' := by
        rintro rfl
        obtain rfl | rfl := hmark <;> cases hstep
      by_cases hbang : c = '!'
      · -- It can only be the whole type, and then the block comes next.
        subst hbang
        obtain rfl | rfl := hmark
        · cases hstep
          cases more with
          | nil => exact ⟨rfl, rfl⟩
          | cons t more => simp [Mark.Nesting.run, Mark.step_never] at hmore
        · cases hstep
      · simp [atWord, atOp, afterOp?, Ne.symm hbang, Ne.symm hquestion]
    | _ => exact ⟨rfl, rfl⟩

/-- What the body of an impl block is read with. -/
def Grammar.implBody (g : Grammar) : Parser (List Attribute × List Item) := do
  let inner ← g.innerAttributes
  let items ← untilEnd g.implItem
  return (inner, items)

/-- An impl block of a type after its parameters. -/
def Grammar.implAfterParams? (g : Grammar) (params : List (Tree .genericParam)) :
    Parser (Option Item) := do
  let tokens ← ahead
  let isConst := atWord "const" tokens || (atOp "?" tokens && atWord "const" (skip tokens))
  if isConst then
    let _ ← op? "?"
    keyword "const"
  let tokens ← ahead
  let negative := atOp "!" tokens && !atGroup .brace (skip tokens)
  if negative then op "!"
  let first ← g.type true
  let isFor ← keyword? "for"
  if !isFor && negative then broken "inherent impls cannot be negative"
  let type ← if isFor then g.type true else pure first
  let trait : Option (Tree .path) :=
    match isFor, first with
    | true, .pathType (.path .absent position rooted segments) =>
      some (.path .absent position rooted segments)
    | _, _ => none
  let conditions ← g.conditions
  inside .brace do
    let inner ← g.innerAttributes
    let items ← untilEnd g.implItem
    return if isConst || (isFor && trait.isNone) then none
    else some (.implItem (.ofList inner) false false
      (.generics (.ofList params) (.ofList conditions)) negative (.ofOption trait) type
      (.ofList items))

theorem Grammar.reads_implBlock? (g : Grammar) {rest : List Token} {found : Option Item}
    (hrest : input.rest = .word "impl" :: rest)
    (h : g.implBlock? [] .inherited input = .ok (found, final)) :
    ∃ params opened named, opened.rest = rest ∧
      (g.genericParams opened = .ok (params, named) ∨ named = opened) ∧
      g.implAfterParams? params named = .ok (found, final) := by
  have hword : ∀ text ≠ "impl", atWord text input.rest = false := by
    intro text htext
    rw [hrest]
    simp [atWord, htext.symm]
  obtain ⟨started, hstarted, -, h⟩ :=
    (reads_keyword?_false (hword "default" (by decide))).of_bind_eq_ok h
  rw [← hstarted] at hword hrest
  obtain ⟨marked, hmarked, -, h⟩ :=
    (reads_keyword?_false (hword "unsafe" (by decide))).of_bind_eq_ok h
  have himpl : Reads (keyword "impl") marked.rest () rest := by
    rw [hmarked, hrest]
    exact reads_keyword _ _
  obtain ⟨opened, hopened, -, h⟩ := himpl.of_bind_eq_ok h
  have h := ahead_bind_eq_ok_iff.1 h
  split at h
  case isTrue =>
    obtain ⟨params, named, hparams, h⟩ := bind_input_eq_ok_iff.1 h
    exact ⟨params, opened, named, hopened, .inl hparams, h⟩
  case isFalse => exact ⟨[], opened, opened, hopened, .inr rfl, h⟩

/-- A type and a block after `impl` are an impl block of a type, whatever the type is. -/
theorem exists_implItem_of_implBlock? {depth : Nat} {tokens : List Token} {found : Option Item}
    (htokens : IsWhole tokens)
    (hrest : input.rest = .word "impl" :: (tokens ++ .group .brace content :: after))
    (h : (Grammar.atDepth depth).implBlock? [] .inherited input = .ok (found, final)) :
    ∃ inner items leftover last generics type,
      (Grammar.atDepth depth).implBody ⟨content, [], leftover⟩ = .ok ((inner, items), last) ∧
      found = some (.implItem (.ofList inner) false false generics false .absent type
        (.ofList items)) ∧ final.rest = after := by
  have hg := scanned_atDepth depth
  obtain ⟨params, opened, named, hopened, hparams, h⟩ :=
    Grammar.reads_implBlock? (Grammar.atDepth depth) hrest h
  obtain ⟨more, hmore, hnamed⟩ : ∃ more, IsRemainder more ∧
      named.rest = more ++ .group .brace content :: after := by
    obtain hparams | rfl := hparams
    · exact htokens.isRemainder_of_genericParams hopened hparams
    · exact ⟨tokens, htokens.isRemainder, hopened⟩
  obtain ⟨hconst, hnegative⟩ := hmore.not_marked content after
  rw [← hnamed] at hconst hnegative
  have h := ahead_bind_eq_ok_iff.1 h
  simp only [hconst, Bool.false_eq_true, if_false, Bool.false_or] at h
  have h := ahead_bind_eq_ok_iff.1 h
  simp only [hnegative, Bool.false_eq_true, if_false, Bool.and_false] at h
  obtain ⟨first, typed, htype, h⟩ := bind_input_eq_ok_iff.1 h
  have hstops := stopsBefore_of_type_eq_ok hg hmore.opened hnamed htype
  obtain ⟨isFor, plain, hfor, hrest⟩ := bind_input_eq_ok_iff.1 h
  obtain ⟨rfl, rfl⟩ := hstops.keyword?_for ⟨content, rfl⟩ hfor
  obtain ⟨type, typed', hsame, htail⟩ := bind_input_eq_ok_iff.1 hrest
  cases hsame
  obtain ⟨conditions, met, hconditions, hblock⟩ := bind_input_eq_ok_iff.1 htail
  obtain rfl := hstops.conditions ⟨content, rfl⟩ hconditions
  obtain ⟨last, hbody, hfinal⟩ := hstops.inside hblock
  obtain ⟨inner, started, hinner, hitems⟩ := bind_input_eq_ok_iff.1 hbody
  obtain ⟨items, ended, hitems, hlast⟩ := bind_input_eq_ok_iff.1 hitems
  cases hlast
  exact ⟨inner, items, met.leftover, last, .generics (.ofList params) (.ofList conditions), first,
    bind_input_eq_ok_iff.2 ⟨_, _, hinner, bind_input_eq_ok_iff.2 ⟨_, _, hitems, rfl⟩⟩, rfl, hfinal⟩

end Readers

end ForeignWrap.Syntax
