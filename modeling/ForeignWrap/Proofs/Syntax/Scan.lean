import ForeignWrap.Proofs.Syntax.Mark

/-!
# Following what small readers take

What a reader takes and what it writes are followed alike, token by token. Readers that are put
together are followed if their parts are.

## Main statements

* `ForeignWrap.Syntax.scans_collect`, `ForeignWrap.Syntax.scans_chain`: one thing after another.
* `ForeignWrap.Syntax.scans_angled`: things between angle brackets.
-/

namespace ForeignWrap.Syntax

open Code (Delimiter Token)
open Syntax.Parser

/-! ## Tokens -/

section Tokens

variable {input final : Input} {before after : Place}

theorem ahead_bind_eq_ok_iff {β : Type} {f : List Token → Parser β} {b : β} :
    (ahead >>= f) input = .ok (b, final) ↔ f input.rest input = .ok (b, final) :=
  Iff.rfl

/-- Readers that take some tokens and write others for them. -/
theorem scans_of_advance (used written : List Token) {rest : List Token}
    (hrest : input.rest = used ++ rest)
    (hfinal : final = { input with rest, taken := written.reverse ++ input.taken })
    (hrun : ∀ mark, before mark input.rest →
      (∃ mark', mark.run used = some mark' ∧ after mark' rest) ∧
      ∃ mark', mark.run written = some mark' ∧ after mark' rest) :
    Scans input final before after := by
  subst hfinal
  refine ⟨used, written, hrest, rfl, fun mark hmark => ?_⟩
  obtain ⟨⟨mark₁, hused, h₁⟩, mark₂, hwritten, h₂⟩ := hrun mark hmark
  exact ⟨⟨mark₁, Mark.leads_of_run hused, h₁⟩, mark₂, Mark.leads_of_run hwritten, h₂⟩

/-- The signs of an operator are followed as those that are written, joint or not. -/
theorem exists_used_of_afterOp? {cs : List Char} {tokens rest : List Token}
    (h : afterOp? cs tokens = some rest) :
    ∃ used, tokens = used ++ rest ∧ ∀ mark : Mark, mark.run used = mark.run (Code.opSigns cs) := by
  fun_induction afterOp? cs tokens with
  | case1 => cases h
  | case2 c joint tail =>
    cases h
    exact ⟨[.sign c joint], rfl, fun mark => by cases mark <;> rfl⟩
  | case3 => cases h
  | case4 c next cs d joint tail hsame ih =>
    obtain ⟨used, rfl, hrun⟩ := ih h
    obtain ⟨rfl, -⟩ : c = d ∧ joint = true := by simpa using hsame
    refine ⟨.sign c joint :: used, rfl, fun mark => ?_⟩
    have hnext : mark.next (.sign c joint) = mark.next (.sign c true) := by cases mark <;> rfl
    rw [Code.opSigns, Mark.run, Mark.run, hnext]
    cases mark.next (.sign c true) with
    | none => rfl
    | some mark' => exact hrun mark'
  | case5 => cases h
  | case6 => cases h

theorem scans_op {signs : String} (h : op signs input = .ok ((), final))
    (hrun : ∀ mark, before mark input.rest →
      ∃ mark', mark.run (Code.op signs) = some mark' ∧ after mark' final.rest) :
    Scans input final before after := by
  have h := ahead_bind_eq_ok_iff.1 h
  cases hafter : afterOp? signs.toList input.rest with
  | none =>
    rw [hafter] at h
    cases h
  | some rest =>
    rw [hafter] at h
    cases h
    obtain ⟨used, hused, hsame⟩ := exists_used_of_afterOp? hafter
    refine scans_of_advance used (Code.op signs) hused rfl fun mark hmark => ?_
    rw [hsame]
    exact ⟨hrun mark hmark, hrun mark hmark⟩

theorem eq_of_op?_eq_ok_false {signs : String} (h : op? signs input = .ok (false, final)) :
    final = input ∧ atOp signs input.rest = false := by
  have h := ahead_bind_eq_ok_iff.1 h
  cases hafter : afterOp? signs.toList input.rest with
  | none =>
    rw [hafter] at h
    cases h
    exact ⟨rfl, by simp [atOp, hafter]⟩
  | some rest =>
    rw [hafter] at h
    cases h

theorem scans_op? {signs : String} {found : Bool} (h : op? signs input = .ok (found, final))
    (hrun : found = true → ∀ mark, before mark input.rest →
      ∃ mark', mark.run (Code.op signs) = some mark' ∧ after mark' final.rest)
    (hstay : found = false → ∀ mark, before mark input.rest → after mark input.rest) :
    Scans input final before after := by
  have h := ahead_bind_eq_ok_iff.1 h
  cases hafter : afterOp? signs.toList input.rest with
  | none =>
    rw [hafter] at h
    cases h
    exact (Scans.refl input after).mono (hstay rfl) fun _ => id
  | some rest =>
    rw [hafter] at h
    cases h
    obtain ⟨used, hused, hsame⟩ := exists_used_of_afterOp? hafter
    refine scans_of_advance used (Code.op signs) hused rfl fun mark hmark => ?_
    rw [hsame]
    exact ⟨hrun rfl mark hmark, hrun rfl mark hmark⟩

/-- A token that is taken is written as it is. -/
theorem scans_token {t : Token} {rest : List Token} (hrest : input.rest = t :: rest)
    (hfinal : final = { input with rest, taken := t :: input.taken })
    (hrun : ∀ mark, before mark input.rest →
      ∃ mark', mark.next t = some mark' ∧ after mark' rest) :
    Scans input final before after := by
  refine scans_of_advance [t] [t] hrest hfinal fun mark hmark => ?_
  obtain ⟨mark', hnext, hafter⟩ := hrun mark hmark
  have hrun : mark.run [t] = some mark' := by rw [Mark.run, hnext]; rfl
  exact ⟨⟨mark', hrun, hafter⟩, mark', hrun, hafter⟩

theorem exists_rest_of_keyword_eq_ok {text : String} (h : keyword text input = .ok ((), final)) :
    ∃ rest, input.rest = .word text :: rest ∧
      final = { input with rest, taken := .word text :: input.taken } := by
  have h := ahead_bind_eq_ok_iff.1 h
  cases hrest : input.rest with
  | nil => rw [hrest] at h; cases h
  | cons t rest =>
    rw [hrest] at h
    cases t with
    | word t =>
      by_cases htext : t = text
      · subst htext
        simp only [if_true] at h
        cases h
        exact ⟨rest, rfl, rfl⟩
      · simp only [htext, if_false] at h
        cases h
    | _ => cases h

theorem scans_keyword {text : String} (h : keyword text input = .ok ((), final))
    (hrun : ∀ mark, before mark input.rest →
      ∃ mark', mark.next (.word text) = some mark' ∧ after mark' final.rest) :
    Scans input final before after := by
  obtain ⟨rest, hrest, rfl⟩ := exists_rest_of_keyword_eq_ok h
  exact scans_token hrest rfl hrun

theorem keyword?_eq_ok {text : String} {found : Bool}
    (h : keyword? text input = .ok (found, final)) :
    found = false ∧ final = input ∧ atWord text input.rest = false ∨
      found = true ∧ ∃ rest, input.rest = .word text :: rest ∧
        final = { input with rest, taken := .word text :: input.taken } := by
  have h := ahead_bind_eq_ok_iff.1 h
  cases hrest : input.rest with
  | nil => rw [hrest] at h; cases h; exact .inl ⟨rfl, rfl, rfl⟩
  | cons t rest =>
    rw [hrest] at h
    cases t with
    | word t =>
      by_cases htext : t = text
      · subst htext
        simp only [if_true] at h
        cases h
        exact .inr ⟨rfl, rest, rfl, rfl⟩
      · simp only [htext, if_false] at h
        cases h
        exact .inl ⟨rfl, rfl, by simpa [atWord] using htext⟩
    | _ => cases h; exact .inl ⟨rfl, rfl, rfl⟩

theorem scans_keyword? {text : String} {found : Bool} (h : keyword? text input = .ok (found, final))
    (hrun : found = true → ∀ mark, before mark input.rest →
      ∃ mark', mark.next (.word text) = some mark' ∧ after mark' final.rest)
    (hstay : found = false → ∀ mark, before mark input.rest → after mark input.rest) :
    Scans input final before after := by
  obtain ⟨rfl, rfl, -⟩ | ⟨rfl, rest, hrest, rfl⟩ := keyword?_eq_ok h
  · exact (Scans.refl _ after).mono (hstay rfl) fun _ => id
  · exact scans_token hrest rfl (hrun rfl)

/-- A word that can be the last of a type leaves the mark of a word. -/
theorem next_word {mark : Mark} {text : String} {rest : List Token} (h : Place.Settled mark rest)
    (htext : text ∉ "for" :: "where" :: Mark.openers) : mark.next (.word text) = some .word := by
  have hconst : text ≠ "const" := by
    rintro rfl
    exact htext (by decide)
  have hword : mark.nextWord text = some .word := by
    simp only [List.mem_cons, not_or] at htext
    simp only [Mark.nextWord, htext, hconst, if_false]
  cases mark <;> first | exact hword | simp [Place.Among, Mark.settled] at h

theorem notMem_of_isName {text : String} (h : isName text = true) :
    text ∉ "for" :: "where" :: Mark.openers := by
  intro hmem
  have hkeywords : ∀ k ∈ "for" :: "where" :: Mark.openers, k ∈ keywords := by decide
  simp [isName, hkeywords text hmem] at h

theorem name_eq_ok {text : String} (h : name input = .ok (text, final)) :
    isName text = true ∧ ∃ rest, input.rest = .word text :: rest ∧
      final = { input with rest, taken := .word text :: input.taken } := by
  have h := ahead_bind_eq_ok_iff.1 h
  cases hrest : input.rest with
  | nil => rw [hrest] at h; cases h
  | cons t rest =>
    rw [hrest] at h
    cases t with
    | word t =>
      by_cases htext : isName t = true
      · simp only [htext, if_true] at h
        cases h
        exact ⟨htext, rest, rfl, rfl⟩
      · simp only [htext] at h
        cases h
    | _ => cases h

theorem scans_name {text : String} (h : name input = .ok (text, final)) :
    Scans input final .Settled (.After .word) := by
  obtain ⟨hname, rest, hrest, rfl⟩ := name_eq_ok h
  exact scans_token hrest rfl fun mark hmark =>
    ⟨.word, next_word hmark (notMem_of_isName hname), rfl⟩

theorem anyWord_eq_ok {text : String} (h : anyWord input = .ok (text, final)) :
    ∃ rest, input.rest = .word text :: rest ∧
      final = { input with rest, taken := .word text :: input.taken } := by
  have h := ahead_bind_eq_ok_iff.1 h
  cases hrest : input.rest with
  | nil => rw [hrest] at h; cases h
  | cons t rest =>
    rw [hrest] at h
    cases t with
    | word t => cases h; exact ⟨rest, rfl, rfl⟩
    | _ => cases h

theorem scans_anyWord {text : String} (h : anyWord input = .ok (text, final))
    (htext : text ∉ "for" :: "where" :: Mark.openers) :
    Scans input final .Settled (.After .word) := by
  obtain ⟨rest, hrest, rfl⟩ := anyWord_eq_ok h
  exact scans_token hrest rfl fun mark hmark => ⟨.word, next_word hmark htext, rfl⟩

theorem lifetime_eq_ok {text : String} (h : lifetime input = .ok (text, final)) :
    ∃ rest, input.rest = .sign '\'' true :: .word text :: rest ∧
      final = { input with rest, taken := (Code.lifetime text).reverse ++ input.taken } := by
  have h := ahead_bind_eq_ok_iff.1 h
  generalize input.rest = tokens at h ⊢
  split at h
  case h_1 name rest =>
    cases h
    exact ⟨rest, rfl, rfl⟩
  case h_2 => cases h

theorem scans_lifetime {text : String} (h : lifetime input = .ok (text, final))
    (hrun : ∀ mark, before mark input.rest →
      ∃ mark', mark.run (Code.lifetime text) = some mark' ∧ after mark' final.rest) :
    Scans input final before after := by
  obtain ⟨rest, hrest, rfl⟩ := lifetime_eq_ok h
  refine scans_of_advance (Code.lifetime text) (Code.lifetime text) hrest rfl fun mark hmark => ?_
  exact ⟨hrun mark hmark, hrun mark hmark⟩

theorem run_lifetime {mark : Mark} {rest : List Token} (text : String)
    (h : Place.Settled mark rest) (hmark : mark ≠ .ref) :
    mark.run (Code.lifetime text) = some .closed := by
  cases mark <;> first | rfl | exact absurd rfl hmark | simp [Place.Among, Mark.settled] at h

theorem literal_eq_ok {text : String} (h : literal input = .ok (text, final)) :
    ∃ used written rest, input.rest = used ++ rest ∧
      final = { input with rest, taken := written.reverse ++ input.taken } ∧
      ∀ mark, Place.Settled mark input.rest →
        (∃ mark', mark.run used = some mark' ∧ Place.Closed mark' rest) ∧
        ∃ mark', mark.run written = some mark' ∧ Place.Closed mark' rest := by
  have h := ahead_bind_eq_ok_iff.1 h
  have hsettled : ∀ {mark : Mark} {tokens : List Token}, Place.Settled mark tokens →
      Place.Settled mark [] := id
  generalize hrest : input.rest = tokens at h ⊢
  split at h
  case h_1 text rest =>
    cases h
    refine ⟨[.literal text], [.literal text], rest, rfl, rfl, fun mark hmark => ?_⟩
    have hrun : mark.run [.literal text] = some .closed := by
      cases mark <;> first | rfl | simp [Place.Among, Mark.settled] at hmark
    exact ⟨⟨_, hrun, Place.closed_closed _⟩, _, hrun, Place.closed_closed _⟩
  case h_2 word rest =>
    split at h
    case isTrue htext =>
      cases h
      refine ⟨[.word text], [.word text], rest, rfl, rfl, fun mark hmark => ?_⟩
      have hlast : text ∉ "for" :: "where" :: Mark.openers := by
        obtain rfl | rfl : text = "true" ∨ text = "false" := by simpa using htext
        all_goals decide
      have hrun : mark.run [.word text] = some .word := by
        rw [Mark.run, next_word hmark hlast]
        rfl
      exact ⟨⟨_, hrun, Place.closed_word _⟩, _, hrun, Place.closed_word _⟩
    case isFalse => cases h
  case h_3 joint text rest =>
    split at h
    case isTrue htext =>
      cases h
      refine ⟨[.sign '-' joint, .literal text], Code.op "-" ++ [.literal text], rest, rfl, rfl,
        fun mark hmark => ?_⟩
      have hrun : ∀ joint, mark.run [.sign '-' joint, .literal text] = some .closed := by
        intro joint
        cases mark <;> first | rfl | simp [Place.Among, Mark.settled] at hmark
      exact ⟨⟨_, hrun joint, Place.closed_closed _⟩, _, hrun false, Place.closed_closed _⟩
    case isFalse => cases h
  case h_4 => cases h

theorem scans_literal {text : String} (h : literal input = .ok (text, final)) :
    Scans input final .Settled .Closed := by
  obtain ⟨used, written, rest, hrest, rfl, hrun⟩ := literal_eq_ok h
  exact scans_of_advance used written hrest rfl hrun

theorem inside_eq_ok {α : Type} {delimiter : Delimiter} {p : Parser α} {a : α}
    (h : inside delimiter p input = .ok (a, final)) :
    ∃ content inner rest, input.rest = .group delimiter content :: rest ∧
      p ⟨content, [], input.leftover⟩ = .ok (a, inner) ∧ final.rest = rest ∧
      final.taken = .group delimiter inner.taken.reverse :: input.taken := by
  obtain ⟨tokens, taken, leftover⟩ := input
  cases tokens with
  | nil => cases h
  | cons t rest =>
    cases t with
    | group d content =>
      by_cases hd : d = delimiter
      · subst hd
        rw [inside_group] at h
        obtain ⟨⟨a', inner⟩, hinner, h⟩ := bind_eq_ok_iff.1 h
        cases h
        exact ⟨content, inner, rest, rfl, hinner, rfl, rfl⟩
      · have h := ahead_bind_eq_ok_iff.1 h
        simp only [hd, if_false] at h
        cases h
    | _ => cases h

/-- A group in parentheses or in square brackets is complete. -/
theorem scans_inside {α : Type} {delimiter : Delimiter} {p : Parser α} {a : α}
    (h : inside delimiter p input = .ok (a, final)) (hdelimiter : delimiter ≠ .brace) :
    Scans input final .Settled (.After .closed) := by
  obtain ⟨content, inner, rest, hrest, -, rfl, htaken⟩ := inside_eq_ok h
  refine ⟨[.group delimiter content], [.group delimiter inner.taken.reverse], hrest, htaken,
    fun mark hmark => ?_⟩
  have hrun : ∀ tokens, mark.run [.group delimiter tokens] = some .closed := by
    intro tokens
    cases delimiter with
    | brace => exact absurd rfl hdelimiter
    | _ => cases mark <;> first | rfl | simp [Place.Among, Mark.settled] at hmark
  exact ⟨⟨_, Mark.leads_of_run (hrun _), rfl⟩, _, Mark.leads_of_run (hrun _), rfl⟩

/-- A group in braces can only be a value between angle brackets. -/
theorem scans_inside_brace {α : Type} {p : Parser α} {a : α}
    (h : inside .brace p input = .ok (a, final)) :
    Scans input final (.After .angle) .Closed := by
  obtain ⟨content, inner, rest, hrest, -, rfl, htaken⟩ := inside_eq_ok h
  refine ⟨[.group .brace content], [.group .brace inner.taken.reverse], hrest, htaken,
    fun mark hmark => ?_⟩
  obtain rfl : mark = .angle := hmark
  exact ⟨⟨_, Mark.leads_of_run rfl, Place.closed_closed _⟩, _, Mark.leads_of_run rfl,
    Place.closed_closed _⟩

/-- The content of a macro is a group after its exclamation mark. -/
theorem scans_anyGroup {delimiter : Delimiter} {content : List Token}
    (h : anyGroup input = .ok ((delimiter, content), final)) :
    Scans input final (.After .bang) .Closed := by
  have h := ahead_bind_eq_ok_iff.1 h
  generalize hrest : input.rest = tokens at h
  split at h
  case h_1 d content rest =>
    cases h
    refine scans_token hrest rfl fun mark hmark => ?_
    obtain rfl : mark = .bang := hmark
    exact ⟨_, rfl, Place.closed_closed _⟩
  case h_2 => cases h

end Tokens

/-! ## What readers are put together with -/

section Combinators

variable {α : Type} {input final : Input} {before after : Place}

theorem scans_collectUpTo {step : Parser (Option α)} {items : List α} {bound : Nat}
    (h : collectUpTo step bound input = .ok (items, final))
    (hsome : ∀ {input final a}, step input = .ok (some a, final) → Scans input final before before)
    (hnone : ∀ {input final}, step input = .ok (none, final) → Scans input final before after)
    (hstop : ∀ mark rest, before mark rest → after mark rest) : Scans input final before after := by
  induction bound generalizing input items with
  | zero =>
    cases h
    exact (Scans.refl _ before).mono (fun _ => id) fun _ => hstop _ _
  | succ bound ih =>
    obtain ⟨found, between, hstep, h⟩ := bind_input_eq_ok_iff.1 h
    cases found with
    | none =>
      cases h
      exact hnone hstep
    | some a =>
      obtain ⟨more, last, hmore, h⟩ := bind_input_eq_ok_iff.1 h
      cases h
      exact (hsome hstep).trans (ih hmore)

/-- What is read one after another is followed if each step is. -/
theorem scans_collect {step : Parser (Option α)} {items : List α}
    (h : collect step input = .ok (items, final))
    (hsome : ∀ {input final a}, step input = .ok (some a, final) → Scans input final before before)
    (hnone : ∀ {input final}, step input = .ok (none, final) → Scans input final before after)
    (hstop : ∀ mark rest, before mark rest → after mark rest) : Scans input final before after :=
  scans_collectUpTo (ahead_bind_eq_ok_iff.1 h) hsome hnone hstop

theorem scans_chainUpTo {stop : List Token → Bool} {separator : String} {item : Parser α}
    {items : List α} {bound : Nat}
    (h : chainUpTo stop separator item bound input = .ok (items, final))
    (hitem : ∀ {input final a}, item input = .ok (a, final) → Scans input final before after)
    (hseparator : ∀ {input final}, op? separator input = .ok (true, final) →
      Scans input final after before)
    (hstop : ∀ mark rest, before mark rest → after mark rest) : Scans input final before after := by
  induction bound generalizing input items with
  | zero =>
    cases h
    exact (Scans.refl _ before).mono (fun _ => id) fun _ => hstop _ _
  | succ bound ih =>
    have h := ahead_bind_eq_ok_iff.1 h
    split at h
    case isTrue =>
      cases h
      exact (Scans.refl _ before).mono (fun _ => id) fun _ => hstop _ _
    case isFalse =>
      obtain ⟨a, between, ha, h⟩ := bind_input_eq_ok_iff.1 h
      obtain ⟨found, between', hfound, h⟩ := bind_input_eq_ok_iff.1 h
      cases found with
      | true =>
        obtain ⟨more, last, hmore, h⟩ := bind_input_eq_ok_iff.1 h
        cases h
        exact (hitem ha).trans ((hseparator hfound).trans (ih hmore))
      | false =>
        cases h
        obtain ⟨rfl, -⟩ := eq_of_op?_eq_ok_false hfound
        exact hitem ha

theorem scans_chain {stop : List Token → Bool} {separator : String} {item : Parser α}
    {items : List α} (h : chain stop separator item input = .ok (items, final))
    (hitem : ∀ {input final a}, item input = .ok (a, final) → Scans input final before after)
    (hseparator : ∀ {input final}, op? separator input = .ok (true, final) →
      Scans input final after before)
    (hstop : ∀ mark rest, before mark rest → after mark rest) : Scans input final before after :=
  scans_chainUpTo (ahead_bind_eq_ok_iff.1 h) hitem hseparator hstop

/-- What is written aside can be followed as what is written in place. -/
theorem capture_eq_ok {p : Parser α} {a : α} {tokens : List Token}
    (h : capture p input = .ok ((a, tokens), final)) :
    ∃ last, p { input with taken := [] } = .ok (a, last) ∧ tokens = last.taken.reverse ∧
      final = { last with taken := input.taken } := by
  rw [capture_apply] at h
  obtain ⟨⟨a', last⟩, hp, h⟩ := bind_eq_ok_iff.1 h
  cases h
  exact ⟨last, hp, rfl, rfl⟩

/-- What may be left unwritten leaves no other place than it found. -/
theorem scans_unlessEmpty {p : Parser (List α)} {items : List α}
    (h : unlessEmpty p input = .ok (items, final))
    (hp : ∀ {input final}, p input = .ok (items, final) → Scans input final before after)
    (hstay : items = [] → ∀ mark, before mark input.rest → after mark final.rest) :
    Scans input final before after := by
  obtain ⟨⟨items', tokens⟩, between, hcapture, h⟩ := bind_input_eq_ok_iff.1 h
  obtain ⟨last, hread, rfl, rfl⟩ := capture_eq_ok hcapture
  cases items' with
  | nil =>
    cases h
    obtain ⟨used, written, hrest, -, hrun⟩ := hp hread
    refine ⟨used, [], hrest, rfl, fun mark hmark => ?_⟩
    exact ⟨(hrun mark hmark).1, mark, .nil mark, hstay rfl mark hmark⟩
  | cons first more =>
    cases h
    obtain ⟨used, written, hrest, htaken, hrun⟩ := hp hread
    rw [List.append_nil] at htaken
    refine ⟨used, written, hrest, ?_, hrun⟩
    simp [htaken]

/-- Tokens that are kept as they were written are those that were taken. -/
theorem scans_keepFrom {start : Input} {tokens : List Token}
    (hscans : Scans start input before after)
    (h : keepFrom start input = .ok (tokens, final)) : Scans start final before after := by
  obtain ⟨used, written, hrest, -, hrun⟩ := hscans
  cases h
  have htake : start.rest.take (start.rest.length - input.rest.length) = used := by
    rw [hrest]
    simp
  refine ⟨used, used, hrest, by rw [htake], fun mark hmark => ?_⟩
  exact ⟨(hrun mark hmark).1, (hrun mark hmark).1⟩

theorem scans_orRaw {raw : List Token → α} {p : Parser (Option α)} {a : α}
    (h : orRaw raw p input = .ok (a, final))
    (hp : ∀ {found final}, p input = .ok (found, final) → Scans input final before after) :
    Scans input final before after := by
  rw [orRaw_apply] at h
  obtain ⟨⟨found, last⟩, hread, h⟩ := bind_eq_ok_iff.1 h
  cases found with
  | some a =>
    cases h
    exact hp hread
  | none =>
    obtain ⟨tokens, between, hkeep, h⟩ := bind_input_eq_ok_iff.1 h
    cases h
    exact scans_keepFrom (hp hread) hkeep

theorem scans_asWritten {p : Parser α} {a : α} {tokens : List Token}
    (h : asWritten p input = .ok ((a, tokens), final))
    (hp : ∀ {a final}, p input = .ok (a, final) → Scans input final before after) :
    Scans input final before after := by
  rw [asWritten_apply] at h
  obtain ⟨⟨a', last⟩, hread, h⟩ := bind_eq_ok_iff.1 h
  obtain ⟨tokens, between, hkeep, h⟩ := bind_input_eq_ok_iff.1 h
  cases h
  exact scans_keepFrom (hp hread) hkeep

end Combinators

/-! ## Angle brackets -/

section Angled

variable {α : Type} {input final : Input} {isLifetime : α → Bool} {item : Parser α}

theorem run_comma {mark : Mark} {rest : List Token} (h : Place.Steady mark rest) :
    mark.run (Code.op ",") = some .angle := by
  cases mark <;> first | rfl | simp [Place.Among, Mark.steady] at h

/-- What stands between angle brackets, and with the brackets. -/
theorem Mark.Leads.inBrackets {mark last : Mark} {tokens : List Token} (h : angle.Leads tokens last)
    (hmark : mark ∈ binder :: settled) (hlast : last ∈ steady) (joint joint' : Bool) :
    mark.Leads (.sign '<' joint :: (tokens ++ [.sign '>' joint']))
      (if mark == binder then bound else shut) := by
  intro open_
  have hdash : mark ≠ dash := by
    rintro rfl
    exact absurd hmark (by decide)
  have hdash' : last ≠ dash := by
    rintro rfl
    exact absurd hlast (by decide)
  have hopen : Nesting.step (mark, open_) (.sign '<' joint) =
      some (angle, (mark == binder) :: open_) := by
    simp [Nesting.step, Nesting.bracket, hdash, hmark]
  have hclose : Nesting.step (last, (mark == binder) :: open_) (.sign '>' joint') =
      some (if mark == binder then bound else shut, open_) := by
    simp [Nesting.step, Nesting.bracket, hdash', hlast]
  rw [Nesting.run, hopen, Option.bind_some, Nesting.run_append, h, Option.bind_some, Nesting.run,
    hclose]
  rfl

theorem op_eq_ok_of_sign {signs : String} {c : Char} (hsigns : signs.toList = [c])
    (h : op signs input = .ok ((), final)) :
    ∃ joint rest, input.rest = .sign c joint :: rest ∧
      final = { input with rest, taken := .sign c false :: input.taken } := by
  have h := ahead_bind_eq_ok_iff.1 h
  rw [hsigns] at h
  generalize input.rest = tokens at h ⊢
  cases tokens with
  | nil => cases h
  | cons t rest =>
    cases t with
    | sign d joint =>
      by_cases hd : c = d
      · subst hd
        simp only [afterOp?, if_true] at h
        cases h
        refine ⟨joint, rest, rfl, ?_⟩
        simp [Code.op, hsigns, Code.opSigns]
      · simp only [afterOp?, hd, if_false] at h
        cases h
    | _ => cases h

/-- How one of the things between angle brackets may be written: a lifetime anywhere, and another
thing after the bracket or a comma. -/
def Angled.Runs (written : Angled) : Prop :=
  (written.isLifetime = true → ∀ mark : Mark, Place.Steady mark [] →
    ∃ mark', mark.Leads written.tokens mark' ∧ Place.Steady mark' []) ∧
  ∃ mark', Mark.angle.Leads written.tokens mark' ∧ Place.Steady mark' []

theorem steady_angle : Place.Steady .angle [] :=
  List.mem_of_elem_eq_true rfl

theorem Angled.leads_withComma {written : Angled} {mark mark' : Mark}
    (hleads : mark.Leads written.tokens mark') (hsteady : Place.Steady mark' []) :
    ∃ last, mark.Leads written.withComma last ∧ Place.Steady last [] ∧
      (written.comma = true → last = .angle) := by
  rw [Angled.withComma]
  cases hcomma : written.comma with
  | true =>
    exact ⟨_, hleads.append (Mark.leads_of_run (run_comma hsteady)), steady_angle, fun _ => rfl⟩
  | false => exact ⟨mark', hleads.append (.nil _), hsteady, by simp⟩

theorem leads_lifetimes {lifetimes : List Angled} (h : ∀ written ∈ lifetimes, written.Runs)
    (hlifetimes : ∀ written ∈ lifetimes, written.isLifetime = true) {mark : Mark}
    (hmark : Place.Steady mark []) :
    ∃ last, mark.Leads (lifetimes.flatMap Angled.withComma) last ∧ Place.Steady last [] ∧
      (lifetimes.getLast?.all (·.comma) = true → (lifetimes = [] → mark = .angle) →
        last = .angle) := by
  induction lifetimes generalizing mark with
  | nil => exact ⟨mark, .nil mark, hmark, fun _ h => h rfl⟩
  | cons first rest ih =>
    obtain ⟨hfirst, hrest⟩ := List.forall_mem_cons.1 h
    obtain ⟨hlifetime, hlifetimes⟩ := List.forall_mem_cons.1 hlifetimes
    obtain ⟨mark₁, hrun, hsteady⟩ := hfirst.1 hlifetime mark hmark
    obtain ⟨mark₂, hcomma, hsteady₂, hangle⟩ := first.leads_withComma hrun hsteady
    obtain ⟨last, hlast, hsteady₃, hclosed⟩ := ih hrest hlifetimes hsteady₂
    refine ⟨last, by rw [List.flatMap_cons]; exact hcomma.append hlast, hsteady₃, fun hall _ => ?_⟩
    cases rest with
    | nil =>
      cases hlast []
      exact hangle (by simpa using hall)
    | cons next more => exact hclosed (by simpa using hall) (by simp)

/-- In whatever order they are written, the things between angle brackets can be followed. -/
theorem leads_lifetimesFirst {items : List Angled} (h : ∀ written ∈ items, written.Runs) :
    ∃ last, Mark.angle.Leads (lifetimesFirst items) last ∧ Place.Steady last [] := by
  have hothers : ∀ (others : List Angled) (start : List Token × Bool),
      (∀ written ∈ others, written.Runs) →
      (∃ mark, Mark.angle.Leads start.1 mark ∧ Place.Steady mark [] ∧
        (start.2 = true → mark = .angle)) →
      ∃ last, Mark.angle.Leads (others.foldl (fun written item =>
        (written.1 ++ (if written.2 then [] else Code.op ",") ++ item.withComma, item.comma))
        start).1 last ∧ Place.Steady last [] := by
    intro others
    induction others with
    | nil =>
      rintro start - ⟨mark, hrun, hsteady, -⟩
      exact ⟨mark, hrun, hsteady⟩
    | cons written rest ih =>
      rintro ⟨tokens, closed⟩ hruns ⟨mark, hrun, hsteady, hclosed⟩
      obtain ⟨hwritten, hrest⟩ := List.forall_mem_cons.1 hruns
      obtain ⟨mark', hitem, hsteady'⟩ := hwritten.2
      obtain ⟨last, hcomma, hlast, hangle⟩ := written.leads_withComma hitem hsteady'
      refine ih _ hrest ⟨last, ?_, hlast, hangle⟩
      refine Mark.Leads.append (hrun.append ?_) hcomma
      cases hclosed' : closed with
      | true =>
        rw [hclosed hclosed']
        exact .nil _
      | false => exact Mark.leads_of_run (run_comma hsteady)
  have hlifetimes : ∀ written ∈ items.filter (·.isLifetime), written.Runs := fun written hmem =>
    h written (List.mem_of_mem_filter hmem)
  obtain ⟨mark, hrun, hsteady, hclosed⟩ := leads_lifetimes hlifetimes (by simp) steady_angle
  exact hothers _ _ (fun written hmem => h written (List.mem_of_mem_filter hmem))
    ⟨mark, hrun, hsteady, fun hall => hclosed hall fun _ => rfl⟩

/-- Where the loop over the things between angle brackets stands. -/
def AngledPlace : Place := fun mark rest =>
  mark = .angle ∨ Place.Steady mark rest ∧ atOp ">" rest = true

theorem AngledPlace.steady {mark : Mark} {rest : List Token} (h : AngledPlace mark rest) :
    Place.Steady mark [] := by
  obtain rfl | ⟨hsteady, -⟩ := h
  · exact steady_angle
  · exact hsteady

/-- A comma is followed, or the closing bracket comes. -/
theorem scans_angledComma {comma : Bool} (h : (do
      if atOp ">" (← ahead) then return false
      op ","
      return true : Parser Bool) input = .ok (comma, final)) :
    Scans input final .Steady AngledPlace := by
  have h := ahead_bind_eq_ok_iff.1 h
  split at h
  case isTrue hangle =>
    cases h
    exact (Scans.refl input AngledPlace).mono (fun _ hmark => .inr ⟨hmark, hangle⟩) fun _ => id
  case isFalse =>
    obtain ⟨_, between, hop, h⟩ := bind_input_eq_ok_iff.1 h
    cases h
    exact scans_op hop fun mark hmark => ⟨.angle, run_comma hmark, .inl rfl⟩

/-- The things between angle brackets are followed one by one. -/
theorem exists_leads_of_angledItems {items : List (α × Angled)} {bound : Nat}
    (h : collectUpTo (Grammar.angledStep isLifetime item) bound input = .ok (items, final))
    (hitem : ∀ {input final a}, item input = .ok (a, final) →
      Scans input final (.After .angle) .Steady)
    (hlifetime : ∀ {input final a}, item input = .ok (a, final) → isLifetime a = true →
      Scans input final .Steady .Steady) :
    final.taken = input.taken ∧ (∀ found ∈ items, found.2.Runs) ∧
      ∃ used, input.rest = used ++ final.rest ∧ ∀ mark, AngledPlace mark input.rest →
        ∃ mark', mark.Leads used mark' ∧ Place.Steady mark' [] := by
  induction bound generalizing input items with
  | zero =>
    cases h
    exact ⟨rfl, by simp, [], rfl, fun mark hmark => ⟨mark, .nil mark, hmark.steady⟩⟩
  | succ bound ih =>
    obtain ⟨found, between, hstep, h⟩ := bind_input_eq_ok_iff.1 h
    have hstep := ahead_bind_eq_ok_iff.1 hstep
    split at hstep
    case isTrue =>
      cases hstep
      cases h
      exact ⟨rfl, by simp, [], rfl, fun mark hmark => ⟨mark, .nil mark, hmark.steady⟩⟩
    case isFalse hangle =>
      obtain ⟨⟨a, tokens⟩, middle, hcapture, hstep⟩ := bind_input_eq_ok_iff.1 hstep
      obtain ⟨⟨comma, commaTokens⟩, middle', hcomma, hstep⟩ := bind_input_eq_ok_iff.1 hstep
      cases hstep
      obtain ⟨more, last, hmore, h⟩ := bind_input_eq_ok_iff.1 h
      cases h
      obtain ⟨last', hread, rfl, rfl⟩ := capture_eq_ok hcapture
      obtain ⟨last'', hread', rfl, rfl⟩ := capture_eq_ok hcomma
      obtain ⟨htaken, hruns, used, hused, hrun⟩ := ih hmore
      obtain ⟨itemUsed, written, hrest, hwritten, hitemRun⟩ := hitem hread
      obtain ⟨commaUsed, _, hrest', -, hcommaRun⟩ := scans_angledComma hread'
      have hangleRun := hitemRun .angle rfl
      have htokens : last'.taken.reverse = written := by simp [hwritten]
      rw [htokens]
      refine ⟨htaken, List.forall_mem_cons.2 ⟨⟨fun hlife mark hmark => ?_, ?_⟩, hruns⟩,
        itemUsed ++ (commaUsed ++ used), ?_, fun mark hmark => ?_⟩
      · obtain ⟨_, written', -, hwritten', hrun'⟩ := hlifetime hread hlife
        obtain rfl : written = written' := by
          rw [hwritten] at hwritten'
          simpa using hwritten'
        exact (hrun' mark hmark).2
      · exact hangleRun.2
      · rw [hrest, hrest', hused]
        simp only [List.append_assoc]
      · obtain rfl : mark = .angle := by
          obtain rfl | ⟨-, hclose⟩ := hmark
          · rfl
          · exact absurd hclose hangle
        obtain ⟨mark₁, hrun₁, hsteady₁⟩ := hangleRun.1
        obtain ⟨⟨mark₂, hrun₂, hplace₂⟩, -⟩ := hcommaRun mark₁ hsteady₁
        obtain ⟨mark₃, hrun₃, hsteady₃⟩ := hrun mark₂ hplace₂
        exact ⟨mark₃, hrun₁.append (hrun₂.append hrun₃), hsteady₃⟩

/-- What stands between angle brackets is complete with them. They hold arguments, or what a binder
introduces. -/
theorem scans_inBrackets {opened between : Input} (hopen : op "<" input = .ok ((), opened))
    (hinside : Scans opened between (.After .angle) .Steady)
    (hclose : op ">" between = .ok ((), final)) :
    Scans input final .Settled (.After .shut) ∧
      Scans input final (.After .binder) (.After .bound) := by
  obtain ⟨joint, rest, hrest, rfl⟩ := op_eq_ok_of_sign (c := '<') rfl hopen
  obtain ⟨joint', rest', hrest', rfl⟩ := op_eq_ok_of_sign (c := '>') rfl hclose
  obtain ⟨used, written, hused, htaken, hrun⟩ := hinside
  obtain ⟨⟨last, hlast, hsteady⟩, last', hlast', hsteady'⟩ := hrun .angle rfl
  have hall : input.rest = .sign '<' joint :: (used ++ [.sign '>' joint']) ++ rest' := by
    have hused : rest = used ++ between.rest := hused
    rw [hrest, hused, hrest']
    simp
  have htaken : .sign '>' false :: between.taken =
      (.sign '<' false :: (written ++ [.sign '>' false])).reverse ++ input.taken := by
    rw [htaken]
    simp
  have hleads : ∀ mark ∈ Mark.binder :: Mark.settled,
      mark.Leads (.sign '<' joint :: (used ++ [.sign '>' joint']))
        (if mark == .binder then .bound else .shut) ∧
      mark.Leads (.sign '<' false :: (written ++ [.sign '>' false]))
        (if mark == .binder then .bound else .shut) := fun mark hmark =>
    ⟨hlast.inBrackets hmark hsteady joint joint', hlast'.inBrackets hmark hsteady' false false⟩
  refine ⟨⟨_, _, hall, htaken, fun mark hmark => ?_⟩, ⟨_, _, hall, htaken, fun mark hmark => ?_⟩⟩
  · have hbinder : (mark == .binder) = false := by
      cases mark <;> first | rfl | simp [Place.Among, Mark.settled] at hmark
    have hleads := hleads mark (List.mem_cons_of_mem _ hmark)
    rw [hbinder] at hleads
    exact ⟨⟨_, hleads.1, rfl⟩, _, hleads.2, rfl⟩
  · obtain rfl : mark = .binder := hmark
    have hleads := hleads .binder List.mem_cons_self
    exact ⟨⟨_, hleads.1, rfl⟩, _, hleads.2, rfl⟩

/-- Things between angle brackets are complete. -/
theorem scans_angled {items : List α} (h : angled isLifetime item input = .ok (items, final))
    (hitem : ∀ {input final a}, item input = .ok (a, final) →
      Scans input final (.After .angle) .Steady)
    (hlifetime : ∀ {input final a}, item input = .ok (a, final) → isLifetime a = true →
      Scans input final .Steady .Steady) :
    Scans input final .Settled (.After .shut) ∧
      Scans input final (.After .binder) (.After .bound) := by
  obtain ⟨_, opened, hopen, h⟩ := bind_input_eq_ok_iff.1 h
  obtain ⟨found, between, hcollect, h⟩ := bind_input_eq_ok_iff.1 h
  obtain ⟨_, written, hwrite, h⟩ := bind_input_eq_ok_iff.1 h
  obtain ⟨_, closed, hclose, h⟩ := bind_input_eq_ok_iff.1 h
  cases h
  cases hwrite
  obtain ⟨htaken, hruns, used, hused, hrun⟩ :=
    exists_leads_of_angledItems (ahead_bind_eq_ok_iff.1 hcollect) hitem hlifetime
  have hinside : Scans opened { between with
      taken := (lifetimesFirst (found.map (·.2))).reverse ++ between.taken }
      (.After .angle) .Steady := by
    refine ⟨used, lifetimesFirst (found.map (·.2)), hused, by rw [htaken], ?_⟩
    rintro mark rfl
    refine ⟨hrun .angle (.inl rfl), leads_lifetimesFirst fun written hwritten => ?_⟩
    obtain ⟨item, hitem, rfl⟩ := List.mem_map.1 hwritten
    exact hruns item hitem
  exact scans_inBrackets hopen hinside hclose

end Angled

/-- From wherever things may stand, these tokens leave `last`. -/
def Mark.Leaves (tokens : List Token) (last : Mark) : Prop :=
  ∀ mark ∈ Mark.settled, mark.run tokens = some last

instance (tokens : List Token) (last : Mark) : Decidable (Mark.Leaves tokens last) :=
  inferInstanceAs (Decidable (∀ mark ∈ _, _))

section Leaves

variable {input final : Input} {signs : String} {last : Mark}

theorem scans_op_leaves (h : op signs input = .ok ((), final))
    (hleaves : Mark.Leaves (Code.op signs) last) : Scans input final .Settled (.After last) :=
  scans_op h fun mark hmark => ⟨last, hleaves mark hmark, rfl⟩

/-- An operator that may come: it leaves its mark, or nothing has changed. -/
theorem scans_op?_leaves {found : Bool} (h : op? signs input = .ok (found, final))
    (hleaves : Mark.Leaves (Code.op signs) last) :
    found = true ∧ Scans input final .Settled (.After last) ∨
      found = false ∧ final = input ∧ atOp signs input.rest = false := by
  cases found with
  | true =>
    exact .inl ⟨rfl, scans_op? h (fun _ mark hmark => ⟨last, hleaves mark hmark, rfl⟩) (by simp)⟩
  | false => exact .inr ⟨rfl, eq_of_op?_eq_ok_false h⟩

theorem scans_keyword_leaves {text : String} (h : keyword text input = .ok ((), final))
    (hleaves : Mark.Leaves [.word text] last) : Scans input final .Settled (.After last) := by
  refine scans_keyword h fun mark hmark => ⟨last, ?_, rfl⟩
  have hrun := hleaves mark hmark
  rw [Mark.run] at hrun
  cases hnext : mark.next (.word text) with
  | none => rw [hnext] at hrun; cases hrun
  | some mark' =>
    rw [hnext] at hrun
    cases hrun
    rfl

theorem scans_keyword?_leaves {text : String} {found : Bool}
    (h : keyword? text input = .ok (found, final)) (hleaves : Mark.Leaves [.word text] last) :
    found = true ∧ Scans input final .Settled (.After last) ∨
      found = false ∧ final = input ∧ atWord text input.rest = false := by
  obtain ⟨rfl, rfl, hword⟩ | ⟨rfl, rest, hrest, rfl⟩ := keyword?_eq_ok h
  · exact .inr ⟨rfl, rfl, hword⟩
  · refine .inl ⟨rfl, scans_token hrest rfl fun mark hmark => ⟨last, ?_, rfl⟩⟩
    have hrun := hleaves mark hmark
    rw [Mark.run] at hrun
    cases hnext : mark.next (.word text) with
    | none => rw [hnext] at hrun; cases hrun
    | some mark' =>
      rw [hnext] at hrun
      cases hrun
      rfl

end Leaves

/-- What is written aside and dropped leaves no other place than it found. -/
theorem scans_capture {α : Type} {p : Parser α} {a : α} {tokens : List Token} {input final : Input}
    {before after : Place} (h : capture p input = .ok ((a, tokens), final))
    (hp : ∀ {input final}, p input = .ok (a, final) → Scans input final before after)
    (hstay : ∀ mark, before mark input.rest → after mark final.rest) :
    Scans input final before after := by
  obtain ⟨last, hread, -, rfl⟩ := capture_eq_ok h
  obtain ⟨used, written, hrest, -, hrun⟩ := hp hread
  exact ⟨used, [], hrest, rfl, fun mark hmark =>
    ⟨(hrun mark hmark).1, mark, .nil mark, hstay mark hmark⟩⟩

theorem leaves_colon : Mark.Leaves (Code.op ":") .opened := by decide

theorem leaves_colons : Mark.Leaves (Code.op "::") .opened := by decide

theorem leaves_equals : Mark.Leaves (Code.op "=") .angle := by decide

theorem leaves_plus : Mark.Leaves (Code.op "+") .plus := by decide

theorem leaves_arrow : Mark.Leaves (Code.op "->") .opened := by decide

theorem leaves_star : Mark.Leaves (Code.op "*") .opened := by decide

/-- The keywords that open something wherever things may stand. -/
theorem leaves_opener {text : String}
    (h : text ∈ ["fn", "unsafe", "extern", "mut", "dyn", "impl", "as", "use"]) :
    Mark.Leaves [.word text] .opened := by
  have hall : ∀ text ∈ ["fn", "unsafe", "extern", "mut", "dyn", "impl", "as", "use"],
      Mark.Leaves [.word text] .opened := by decide
  exact hall text h

theorem leaves_word {text : String} (h : text ∉ "for" :: "where" :: Mark.openers) :
    Mark.Leaves [.word text] .word := by
  intro mark hmark
  have hsettled : Place.Settled mark [] := hmark
  rw [Mark.run, next_word hsettled h]
  rfl

theorem leaves_number : Mark.Leaves (Code.op "#") .opened := by decide

/-- What is read is changed without a token. -/
theorem map_input_eq_ok_iff {α β : Type} {p : Parser α} {f : α → β} {b : β} {input final : Input} :
    (f <$> p) input = .ok (b, final) ↔ ∃ a, p input = .ok (a, final) ∧ f a = b := by
  rw [← bind_pure_comp, bind_input_eq_ok_iff]
  constructor
  · rintro ⟨a, between, hp, h⟩
    cases h
    exact ⟨a, hp, rfl⟩
  · rintro ⟨a, hp, rfl⟩
    exact ⟨a, final, hp, rfl⟩

end ForeignWrap.Syntax
