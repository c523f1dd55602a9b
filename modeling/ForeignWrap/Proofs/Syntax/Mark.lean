import ForeignWrap.Proofs.Syntax.Type

/-!
# How far a type reaches

The code of a type can be followed token by token with a few marks that say what came last. A block
in braces can only be a value between angle brackets or the content of a macro, and where a type has
come to its end neither is possible. So whatever type is read in front of a block, it ends there.

## Main definitions

* `ForeignWrap.Syntax.Mark`: what came last.
* `ForeignWrap.Syntax.Mark.next`: what came last after one more token, if it can be there.
* `ForeignWrap.Syntax.Mark.Leads`: some tokens lead from one mark to another.
* `ForeignWrap.Syntax.Place`: where a reader stands.
* `ForeignWrap.Syntax.Scans`: what a reader takes and writes can be followed.
-/

namespace ForeignWrap.Syntax

open Code (Delimiter Token)
open Syntax.Parser

/-! ## Marks -/

/-- What came last in the code of a type. -/
inductive Mark where
  /-- Nothing. -/
  | start
  /-- A sign or a keyword after which a type, a bound or a name may come. -/
  | opened
  /-- What a thing between angle brackets may come after. -/
  | angle
  /-- A plus sign. -/
  | plus
  /-- The sign of a reference. -/
  | ref
  /-- The apostrophe of the lifetime of a reference. -/
  | refTick
  /-- The apostrophe of another lifetime. -/
  | tick
  /-- A minus sign. -/
  | dash
  /-- The exclamation mark of a macro. -/
  | bang
  /-- The word that introduces parameters. -/
  | binder
  /-- The parameters that were introduced. -/
  | bound
  /-- A word that can be the last one of a path. -/
  | word
  /-- A bracket after generic arguments or after a type. -/
  | shut
  /-- Something else that can be the last of a type. -/
  | closed
  /-- The exclamation mark at the start, after which nothing comes. -/
  | never
deriving DecidableEq

namespace Mark

/-- The keywords that a type, a bound or a name may follow. -/
def openers : List String :=
  ["fn", "unsafe", "extern", "const", "mut", "dyn", "impl", "as", "use"]

/-- Between things. -/
def settled : List Mark :=
  [start, opened, angle, plus, ref, bound, word, shut, closed]

/-- Between things, but not at the start or after an angle bracket that has ended one. -/
def unshut : List Mark :=
  [opened, angle, plus, ref, bound, word, closed]

/-- Between things that have begun. -/
def steady : List Mark :=
  [opened, angle, plus, word, shut, closed]

/-- What a sign leaves after what may be anywhere between things. Angle brackets are apart. -/
def nextSign (mark : Mark) (c : Char) : Option Mark :=
  if c ∈ [',', '='] then some angle
  else if c = '+' then some plus
  else if c = '&' then some ref
  else if c = '\'' then some (if mark = ref then refTick else tick)
  else if c = '-' then some dash
  else if c = '!' then
    if mark = start then some never
    else if mark = word then some bang
    else if mark ∈ [bound, shut, closed] then none
    else some closed
  else if c = '?' then if mark ∈ [start, shut] then none else some opened
  else if c ∈ [':', '*', '#'] then some opened
  else none

/-- What a word leaves. Parameters for a type come in front of it, and conditions never come. -/
def nextWord (mark : Mark) (text : String) : Option Mark :=
  if text = "for" then if mark ∈ [bound, word, shut, closed] then none else some binder
  else if text = "where" then none
  else if text = "const" then if mark ∈ [start, shut] then none else some opened
  else if text ∈ openers then some opened
  else some word

/-- What came last after one more token that is no angle bracket, if it can be there. -/
def next : Mark → Token → Option Mark
  | never, _ | binder, _ => none
  | refTick, .word _ => some opened
  | tick, .word _ => some closed
  | refTick, _ | tick, _ => none
  | dash, .sign c _ => if c = '>' then some opened else none
  | dash, .literal _ => some closed
  | dash, _ => none
  | bang, .group _ _ => some closed
  | bang, _ => none
  | mark, .sign c _ => mark.nextSign c
  | mark, .word text => mark.nextWord text
  | _, .literal _ => some closed
  | mark, .group .brace _ => if mark = angle then some closed else none
  | _, .group _ _ => some closed

/-- What came last after some more tokens without angle brackets, if they can be there. -/
def run : Mark → List Token → Option Mark
  | mark, [] => some mark
  | mark, t :: rest => (mark.next t).bind (run · rest)

/-! ## Angle brackets -/

/-- What came last, and for each angle bracket that is open whether it introduces parameters. -/
abbrev Nesting : Type :=
  Mark × List Bool

/-- What came last after an angle bracket. The one of an arrow opens and closes none. -/
def Nesting.bracket : Nesting → (c : Char) → Option Nesting
  | (mark, open_), c =>
    if c = '<' then
      if mark ∈ binder :: settled then some (angle, (mark == binder) :: open_) else none
    else if mark ∈ steady then
      match open_ with
      | [] => none
      | isBinder :: open_ => some (if isBinder then bound else shut, open_)
    else none

/-- What came last after one more token, if it can be there. -/
def Nesting.step (nesting : Nesting) (t : Token) : Option Nesting :=
  match t with
  | .sign c joint =>
    if c ∈ ['<', '>'] ∧ nesting.1 ≠ dash then nesting.bracket c
    else (nesting.1.next (.sign c joint)).map (·, nesting.2)
  | t => (nesting.1.next t).map (·, nesting.2)

/-- What came last after some more tokens, if they can be there. -/
def Nesting.run : Nesting → List Token → Option Nesting
  | nesting, [] => some nesting
  | nesting, t :: rest => (nesting.step t).bind (Nesting.run · rest)

theorem Nesting.run_append (nesting : Nesting) (tokens rest : List Token) :
    nesting.run (tokens ++ rest) = (nesting.run tokens).bind (·.run rest) := by
  induction tokens generalizing nesting with
  | nil => rfl
  | cons t tokens ih => simp only [List.cons_append, run, Option.bind_assoc, ih]

theorem next_angle_eq_none {mark : Mark} {c : Char} (joint : Bool) (hc : c ∈ ['<', '>'])
    (hmark : mark ≠ dash) : mark.next (.sign c joint) = none := by
  obtain rfl | rfl : c = '<' ∨ c = '>' := by simpa using hc
  all_goals cases mark <;> first | rfl | exact absurd rfl hmark

/-- Tokens without angle brackets leave the same brackets open. -/
theorem step_of_next {mark mark' : Mark} {t : Token} (h : mark.next t = some mark')
    (open_ : List Bool) : Nesting.step (mark, open_) t = some (mark', open_) := by
  cases t with
  | sign c joint =>
    have hangle : ¬ (c ∈ ['<', '>'] ∧ mark ≠ dash) := by
      rintro ⟨hc, hmark⟩
      rw [next_angle_eq_none joint hc hmark] at h
      cases h
    simp only [Nesting.step, if_neg hangle, h, Option.map_some]
  | _ => simp only [Nesting.step, h, Option.map_some]

theorem run_of_run {mark mark' : Mark} {tokens : List Token} (h : mark.run tokens = some mark')
    (open_ : List Bool) : Nesting.run (mark, open_) tokens = some (mark', open_) := by
  induction tokens generalizing mark with
  | nil =>
    cases h
    rfl
  | cons t tokens ih =>
    obtain ⟨middle, hnext, hrun⟩ := Option.bind_eq_some_iff.1 h
    rw [Nesting.run, step_of_next hnext, Option.bind_some, ih hrun]

/-- From one mark these tokens lead to another, with the same brackets open. -/
def Leads (mark : Mark) (tokens : List Token) (last : Mark) : Prop :=
  ∀ open_, Nesting.run (mark, open_) tokens = some (last, open_)

theorem Leads.nil (mark : Mark) : mark.Leads [] mark :=
  fun _ => rfl

theorem Leads.append {mark middle last : Mark} {tokens rest : List Token}
    (h : mark.Leads tokens middle) (h' : middle.Leads rest last) :
    mark.Leads (tokens ++ rest) last := by
  intro open_
  rw [Nesting.run_append, h, Option.bind_some, h']

/-- Tokens without angle brackets. -/
theorem leads_of_run {mark last : Mark} {tokens : List Token} (h : mark.run tokens = some last) :
    mark.Leads tokens last :=
  run_of_run h

end Mark

/-! ## Places -/

/-- Where a reader stands: what came last, and the tokens ahead. -/
abbrev Place := Mark → List Token → Prop

namespace Place

/-- After one of these. -/
def Among (marks : List Mark) : Place := fun mark _ =>
  mark ∈ marks

/-- Between things. -/
abbrev Settled : Place :=
  Among Mark.settled

/-- Between things, but not at the start or after an angle bracket that has ended one. -/
abbrev Unshut : Place :=
  Among Mark.unshut

/-- Between things, the first of which has begun. -/
abbrev Steady : Place :=
  Among Mark.steady

/-- Where a type may begin. -/
def Free : Place := fun mark rest =>
  mark ∈ [.opened, .angle, .plus] ∨ mark = .ref ∧ atLifetime rest = false

/-- Where a type may begin, perhaps as the first thing of all. -/
def Fresh : Place := fun mark rest =>
  mark = .start ∨ Free mark rest

/-- After something that is complete. -/
abbrev Closed : Place :=
  Among [.word, .shut, .closed]

/-- Where a type may end. -/
def Done : Place := fun mark rest =>
  Closed mark rest ∨ mark = .plus ∧ atAnyWord rest = false

/-- After exactly this. -/
def After (mark : Mark) : Place := fun mark' _ =>
  mark' = mark

theorem closed_word (rest : List Token) : Closed .word rest :=
  List.mem_cons_self

theorem closed_shut (rest : List Token) : Closed .shut rest :=
  List.mem_of_elem_eq_true rfl

theorem closed_closed (rest : List Token) : Closed .closed rest :=
  List.mem_of_elem_eq_true rfl

end Place

/-- What was taken and what was written between two states of the input. Both can be followed: from
a mark that is `before`, they lead to one that is `after`. -/
def Scans (input final : Input) (before after : Place) : Prop :=
  ∃ used written, input.rest = used ++ final.rest ∧ final.taken = written.reverse ++ input.taken ∧
    ∀ mark, before mark input.rest →
      (∃ mark', mark.Leads used mark' ∧ after mark' final.rest) ∧
      ∃ mark', mark.Leads written mark' ∧ after mark' final.rest

namespace Scans

variable {input middle final : Input} {before between after : Place}

theorem refl (input : Input) (place : Place) : Scans input input place place :=
  ⟨[], [], rfl, rfl, fun mark h => ⟨⟨mark, .nil mark, h⟩, mark, .nil mark, h⟩⟩

theorem trans (h : Scans input middle before between) (h' : Scans middle final between after) :
    Scans input final before after := by
  obtain ⟨used, written, hrest, htaken, hrun⟩ := h
  obtain ⟨used', written', hrest', htaken', hrun'⟩ := h'
  refine ⟨used ++ used', written ++ written', by rw [hrest, hrest', List.append_assoc],
    by rw [htaken', htaken, List.reverse_append, List.append_assoc], fun mark hmark => ?_⟩
  obtain ⟨⟨mark₁, hused, h₁⟩, mark₂, hwritten, h₂⟩ := hrun mark hmark
  obtain ⟨⟨mark₃, hused', h₃⟩, -⟩ := hrun' mark₁ h₁
  obtain ⟨-, mark₄, hwritten', h₄⟩ := hrun' mark₂ h₂
  exact ⟨⟨mark₃, hused.append hused', h₃⟩, mark₄, hwritten.append hwritten', h₄⟩

theorem mono {before' after' : Place} (h : Scans input final before after)
    (hbefore : ∀ mark, before' mark input.rest → before mark input.rest)
    (hafter : ∀ mark, after mark final.rest → after' mark final.rest) :
    Scans input final before' after' := by
  obtain ⟨used, written, hrest, htaken, hrun⟩ := h
  refine ⟨used, written, hrest, htaken, fun mark hmark => ?_⟩
  obtain ⟨⟨mark₁, hused, h₁⟩, mark₂, hwritten, h₂⟩ := hrun mark (hbefore mark hmark)
  exact ⟨⟨mark₁, hused, hafter _ h₁⟩, mark₂, hwritten, hafter _ h₂⟩

end Scans

section Places

variable {mark : Mark} {rest : List Token}

/-- Marks that are among some are among others. -/
theorem Place.Among.mono {marks marks' : List Mark} (h : Place.Among marks mark rest)
    (hmarks : ∀ mark ∈ marks, mark ∈ marks') : Place.Among marks' mark rest :=
  hmarks mark h

theorem Place.Closed.done (h : Place.Closed mark rest) : Place.Done mark rest :=
  .inl h

theorem Place.Closed.steady (h : Place.Closed mark rest) : Place.Steady mark rest :=
  h.mono (by decide)

theorem Place.Steady.settled (h : Place.Steady mark rest) : Place.Settled mark rest :=
  h.mono (by decide)

theorem Place.Unshut.settled (h : Place.Unshut mark rest) : Place.Settled mark rest :=
  h.mono (by decide)

theorem Place.Done.steady (h : Place.Done mark rest) : Place.Steady mark rest := by
  obtain h | ⟨rfl, -⟩ := h
  · exact h.steady
  · exact List.mem_of_elem_eq_true rfl

theorem Place.Free.settled (h : Place.Free mark rest) : Place.Settled mark rest := by
  cases mark <;> simp [Place.Free, Place.Among, Mark.settled] at h ⊢

theorem Place.Free.unshut (h : Place.Free mark rest) : Place.Unshut mark rest := by
  cases mark <;> simp [Place.Free, Place.Among, Mark.unshut] at h ⊢

theorem Place.Fresh.settled (h : Place.Fresh mark rest) : Place.Settled mark rest := by
  obtain rfl | h := h
  · exact List.mem_of_elem_eq_true rfl
  · exact h.settled

theorem Place.After.eq {mark' : Mark} (h : Place.After mark mark' rest) : mark' = mark :=
  h

theorem Place.After.among {marks : List Mark} {mark' : Mark} (h : Place.After mark' mark rest)
    (hmark : mark' ∈ marks) : Place.Among marks mark rest :=
  h.eq ▸ hmark

end Places

/-- After a sign that a type may follow. -/
abbrev Place.Begun : Place :=
  Among [.opened, .angle, .plus]

theorem Place.After.free {mark mark' : Mark} {rest : List Token} (h : Place.After mark' mark rest)
    (hmark : mark' ∈ [.opened, .angle, .plus]) : Place.Free mark rest :=
  .inl (h.eq ▸ hmark)

namespace Scans

variable {input middle final : Input} {before between before' between' after : Place}

/-- Steps follow each other if the second may begin wherever the first ends. -/
theorem andThen (h : Scans input middle before between)
    (hbetween : ∀ mark rest, between mark rest → between' mark rest)
    (h' : Scans middle final between' after) : Scans input final before after :=
  h.trans (h'.mono (fun mark => hbetween mark _) fun _ => id)

theorem widen (h : Scans input final before after)
    (hafter : ∀ mark rest, after mark rest → between mark rest) :
    Scans input final before between :=
  h.mono (fun _ => id) fun mark => hafter mark _

theorem narrow (h : Scans input final before after)
    (hbefore : ∀ mark rest, before' mark rest → before mark rest) :
    Scans input final before' after :=
  h.mono (fun mark => hbefore mark _) fun _ => id

end Scans

end ForeignWrap.Syntax
