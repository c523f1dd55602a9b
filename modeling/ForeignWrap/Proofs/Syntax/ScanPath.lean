import ForeignWrap.Proofs.Syntax.Scan

/-!
# Following paths and bounds

## Main definitions

* `ForeignWrap.Syntax.Grammar.Scanned`: the readers inside can be followed.

## Main statements

* `ForeignWrap.Syntax.scans_qualifiedPath`: paths can be followed.
* `ForeignWrap.Syntax.scans_bounds`: bounds can be followed.
-/

namespace ForeignWrap.Syntax

open Code (Delimiter Token)
open Syntax.Parser

/-- The readers inside can be followed: types from where a type may begin, and bounds too. -/
structure Grammar.Scanned (g : Grammar) : Prop where
  type : ∀ {plus input final t}, g.type plus input = .ok (t, final) →
    Scans input final .Free .Done
  bound : ∀ {place input final b}, g.bound place input = .ok (b, final) →
    Scans input final .Free .Done

section Readers

variable {g : Grammar} {input final : Input}

/-! ## Parameters -/

theorem scans_lifetime_steady {text : String} (h : lifetime input = .ok (text, final)) :
    Scans input final .Steady .Closed :=
  scans_lifetime h fun mark hmark => ⟨.closed, run_lifetime text hmark.settled (by
    rintro rfl
    simp [Place.Among, Mark.steady] at hmark), Place.closed_closed _⟩

theorem scans_lifetimeBounds {stop : List Token → Bool} {names : List String}
    (h : lifetimeBounds stop input = .ok (names, final)) : Scans input final .Steady .Steady :=
  scans_chain h
    (fun hitem => (scans_lifetime_steady hitem).mono (fun _ => id) fun _ => Place.Closed.steady)
    (fun hop => by
      obtain ⟨-, hscans⟩ | ⟨hfound, -⟩ := scans_op?_leaves hop leaves_plus
      · exact (hscans.narrow fun _ _ => Place.Steady.settled).widen fun _ _ hmark =>
          hmark.among (by decide)
      · cases hfound)
    fun _ _ => id

/-- Attributes are in square brackets, and leave a place where one may stand between things. -/
theorem scans_outerAttributes {marks : List Mark} {attrs : List Attribute}
    (h : g.outerAttributes input = .ok (attrs, final))
    (hmarks : ∀ mark ∈ marks, mark ∈ Mark.settled)
    (hclosed : .closed ∈ marks) : Scans input final (.Among marks) (.Among marks) := by
  refine scans_collect h ?_ ?_ fun _ _ => id
  · intro input final attr hstep
    obtain ⟨found, between, hop, hstep⟩ := bind_input_eq_ok_iff.1 hstep
    obtain ⟨rfl, hopened⟩ | ⟨rfl, -, -⟩ := scans_op?_leaves hop leaves_number
    · obtain ⟨attr, between', hinside, hstep⟩ := bind_input_eq_ok_iff.1 hstep
      cases hstep
      have hinside := (scans_inside hinside (by decide)).widen
        fun _ _ hmark => hmark.among hclosed
      exact (hopened.narrow fun _ _ hmark => hmark.mono hmarks).andThen
        (fun _ _ hmark => hmark.among (by decide)) hinside
    · cases hstep
  · intro input final hstep
    obtain ⟨found, between, hop, hstep⟩ := bind_input_eq_ok_iff.1 hstep
    cases found with
    | false =>
      cases hstep
      obtain ⟨rfl, -⟩ := eq_of_op?_eq_ok_false hop
      exact .refl _ _
    | true =>
      obtain ⟨attr, between', hinside, hstep⟩ := bind_input_eq_ok_iff.1 hstep
      cases hstep

theorem scans_lifetimeParam {attrs : List Attribute} {param : Tree .genericParam}
    (h : Grammar.lifetimeParam attrs input = .ok (param, final)) :
    Scans input final .Steady .Steady := by
  obtain ⟨name, between, hname, h⟩ := bind_input_eq_ok_iff.1 h
  obtain ⟨bounds, between', hbounds, h⟩ := bind_input_eq_ok_iff.1 h
  cases h
  refine (scans_lifetime_steady hname).andThen (fun _ _ => Place.Closed.steady) ?_
  refine scans_unlessEmpty hbounds ?_ fun _ _ => id
  intro input final h
  obtain ⟨found, middle, hop, hrest⟩ := bind_input_eq_ok_iff.1 h
  obtain ⟨rfl, hscans⟩ | ⟨rfl, rfl, -⟩ := scans_op?_leaves hop leaves_colon
  · exact (hscans.narrow fun _ _ => Place.Steady.settled).andThen
      (fun _ _ hmark => hmark.among (by decide)) (scans_lifetimeBounds hrest)
  · cases hrest
    exact .refl _ _

/-- Bounds with plus signs between them. -/
theorem Grammar.Scanned.scans_chain (hg : g.Scanned) {stop : List Token → Bool} {place : BoundPlace}
    {bounds : List (Tree .bound)} (h : chain stop "+" (g.bound place) input = .ok (bounds, final)) :
    Scans input final .Begun .Steady := by
  refine Syntax.scans_chain h (fun hitem => ?_) (fun hop => ?_) fun _ _ hmark =>
    hmark.mono (by decide)
  · exact ((hg.bound hitem).narrow fun _ _ => .inl).widen fun _ _ => Place.Done.steady
  · obtain ⟨-, hscans⟩ | ⟨hfound, -⟩ := scans_op?_leaves hop leaves_plus
    · exact (hscans.narrow fun _ _ => Place.Steady.settled).widen fun _ _ hmark =>
        hmark.among (by decide)
    · cases hfound

/-- A value as a generic argument. -/
theorem scans_valueArg {value : Expr} (h : g.valueArg input = .ok (value, final)) :
    Scans input final (.After .angle) .Closed := by
  have h := ahead_bind_eq_ok_iff.1 h
  split at h
  case isTrue =>
    obtain ⟨text, between, hliteral, h⟩ := bind_input_eq_ok_iff.1 h
    cases h
    exact (scans_literal hliteral).narrow fun _ _ hmark => hmark.among (by decide)
  case isFalse =>
    split at h
    case isTrue =>
      obtain ⟨text, between, hname, h⟩ := bind_input_eq_ok_iff.1 h
      cases h
      exact ((scans_name hname).narrow fun _ _ hmark => hmark.among (by decide)).widen
        fun _ _ hmark => hmark.among (by decide)
    case isFalse =>
      split at h
      case isTrue =>
        obtain ⟨block, between, hblock, h⟩ := bind_input_eq_ok_iff.1 h
        cases h
        exact scans_inside_brace hblock
      case isFalse =>
        obtain ⟨_, _, _, h⟩ := bind_input_eq_ok_iff.1 h
        cases h

theorem scans_typeParam (hg : g.Scanned) {attrs : List Attribute} {param : Tree .genericParam}
    (h : g.typeParam attrs input = .ok (param, final)) : Scans input final .Steady .Steady := by
  obtain ⟨name, between, hname, h⟩ := bind_input_eq_ok_iff.1 h
  obtain ⟨bounds, between', hbounds, h⟩ := bind_input_eq_ok_iff.1 h
  obtain ⟨found, middle, hop, hlast⟩ := bind_input_eq_ok_iff.1 h
  have hnamed : Scans input between .Steady .Steady :=
    ((scans_name hname).narrow fun _ _ => Place.Steady.settled).widen
      fun _ _ hmark => hmark.among (by decide)
  have hbounded : Scans between between' .Steady .Steady := by
    refine scans_unlessEmpty hbounds ?_ fun _ _ => id
    intro input final h
    obtain ⟨found, middle, hop, hrest⟩ := bind_input_eq_ok_iff.1 h
    obtain ⟨rfl, hscans⟩ | ⟨rfl, rfl, -⟩ := scans_op?_leaves hop leaves_colon
    · exact (hscans.narrow fun _ _ => Place.Steady.settled).andThen
        (fun _ _ hmark => hmark.among (by decide)) (hg.scans_chain hrest)
    · cases hrest
      exact .refl _ _
  refine hnamed.trans (hbounded.trans ?_)
  obtain ⟨rfl, hscans⟩ | ⟨rfl, rfl, -⟩ := scans_op?_leaves hop leaves_equals
  · obtain ⟨byDefault, last, hdefault, hlast⟩ := bind_input_eq_ok_iff.1 hlast
    cases hlast
    obtain ⟨type, htype, -⟩ := map_input_eq_ok_iff.1 hdefault
    exact ((hscans.narrow fun _ _ => Place.Steady.settled).andThen
      (fun _ _ hmark => hmark.free (by decide)) (hg.type htype)).widen
        fun _ _ => Place.Done.steady
  · cases hlast
    exact .refl _ _

theorem scans_valueParam (hg : g.Scanned) {attrs : List Attribute} {param : Tree .genericParam}
    (h : g.valueParam attrs input = .ok (param, final)) :
    param.isLifetimeParam = false ∧ Scans input final (.Among [.angle, .closed]) .Steady := by
  obtain ⟨_, between, hconst, h⟩ := bind_input_eq_ok_iff.1 h
  obtain ⟨name, named, hname, h⟩ := bind_input_eq_ok_iff.1 h
  obtain ⟨_, coloned, hcolon, h⟩ := bind_input_eq_ok_iff.1 h
  obtain ⟨type, typed, htype, h⟩ := bind_input_eq_ok_iff.1 h
  obtain ⟨found, middle, hop, hlast⟩ := bind_input_eq_ok_iff.1 h
  have hopened : Scans input between (.Among [.angle, .closed]) (.After .opened) :=
    scans_keyword hconst fun mark hmark => ⟨.opened, by
      cases mark <;> first | rfl | simp [Place.Among] at hmark, rfl⟩
  have hstart : Scans input typed (.Among [.angle, .closed]) .Done :=
    hopened.andThen (fun _ _ hmark => hmark.among (by decide)) <|
    (scans_name hname).andThen (fun _ _ hmark => hmark.among (by decide)) <|
    (scans_op_leaves hcolon leaves_colon).andThen
      (fun _ _ hmark => hmark.free (by decide)) (hg.type htype)
  obtain ⟨rfl, hscans⟩ | ⟨rfl, rfl, -⟩ := scans_op?_leaves hop leaves_equals
  · obtain ⟨byDefault, last, hdefault, hlast⟩ := bind_input_eq_ok_iff.1 hlast
    cases hlast
    obtain ⟨value, hvalue, -⟩ := map_input_eq_ok_iff.1 hdefault
    have hvalue := (hscans.trans (scans_valueArg hvalue)).widen fun _ _ => Place.Closed.steady
    exact ⟨rfl, hstart.andThen (fun _ _ hmark => hmark.steady.settled) hvalue⟩
  · cases hlast
    exact ⟨rfl, hstart.widen fun _ _ => Place.Done.steady⟩

/-- What parameters are after their attributes: a lifetime anywhere, and another one after the
bracket or a comma. -/
def IsParamScan (input final : Input) (param : Tree .genericParam) : Prop :=
  Scans input final (.After .angle) .Steady ∧
    (param.isLifetimeParam = true → Scans input final .Steady .Steady)

theorem Scans.isParamScan {param : Tree .genericParam} (h : Scans input final .Steady .Steady) :
    IsParamScan input final param :=
  ⟨h.narrow fun _ _ hmark => hmark.among (by decide), fun _ => h⟩

/-- A parameter that names a type, a value or a lifetime. -/
theorem isParamScan_of_named (hg : g.Scanned) {attrs : List Attribute}
    {param : Tree .genericParam} {between : Input}
    (hattrs : g.outerAttributes input = .ok (attrs, between))
    (h : Grammar.lifetimeParam attrs between = .ok (param, final) ∨
      g.typeParam attrs between = .ok (param, final) ∨
      g.valueParam attrs between = .ok (param, final)) : IsParamScan input final param := by
  have hbefore : Scans input between .Steady .Steady :=
    scans_outerAttributes hattrs (by decide) (by decide)
  obtain h | h | h := h
  · exact (hbefore.trans (scans_lifetimeParam h)).isParamScan
  · exact (hbefore.trans (scans_typeParam hg h)).isParamScan
  · obtain ⟨hparam, hscans⟩ := scans_valueParam hg h
    have hbefore : Scans input between (.Among [.angle, .closed]) (.Among [.angle, .closed]) :=
      scans_outerAttributes hattrs (by decide) (by decide)
    exact ⟨(hbefore.trans hscans).narrow fun _ _ hmark => hmark.among (by decide), by simp [hparam]⟩

theorem isParamScan_itemParam (hg : g.Scanned) {param : Tree .genericParam}
    (h : g.itemParam input = .ok (param, final)) : IsParamScan input final param := by
  obtain ⟨attrs, between, hattrs, h⟩ := bind_input_eq_ok_iff.1 h
  have h := ahead_bind_eq_ok_iff.1 h
  split at h
  case isTrue => exact isParamScan_of_named hg hattrs (.inl h)
  case isFalse =>
  split at h
  case isTrue => exact isParamScan_of_named hg hattrs (.inr (.inl h))
  case isFalse =>
  split at h
  case isTrue => exact isParamScan_of_named hg hattrs (.inr (.inr h))
  case isFalse =>
  obtain ⟨found, middle, hkeyword, hlast⟩ := bind_input_eq_ok_iff.1 h
  obtain ⟨rfl, hscans⟩ | ⟨rfl, rfl, -⟩ := scans_keyword?_leaves hkeyword (leaves_word (by decide))
  · cases hlast
    have hbefore : Scans input between .Steady .Steady :=
      scans_outerAttributes hattrs (by decide) (by decide)
    exact (hbefore.andThen (fun _ _ => Place.Steady.settled) (hscans.widen
      fun _ _ hmark => hmark.among (by decide))).isParamScan
  · obtain ⟨_, _, _, hlast⟩ := bind_input_eq_ok_iff.1 hlast
    cases hlast

theorem isParamScan_forParam (hg : g.Scanned) {param : Tree .genericParam}
    (h : g.forParam input = .ok (param, final)) : IsParamScan input final param := by
  obtain ⟨attrs, between, hattrs, h⟩ := bind_input_eq_ok_iff.1 h
  have h := ahead_bind_eq_ok_iff.1 h
  split at h
  case isTrue => exact isParamScan_of_named hg hattrs (.inr (.inl h))
  case isFalse =>
  split at h
  case isTrue => exact isParamScan_of_named hg hattrs (.inl h)
  case isFalse =>
  split at h
  case isTrue => exact isParamScan_of_named hg hattrs (.inr (.inr h))
  case isFalse =>
  obtain ⟨_, _, _, h⟩ := bind_input_eq_ok_iff.1 h
  cases h

/-- The parameters of an item are taken as a whole, if there are angle brackets. -/
theorem exists_used_of_genericParams (hg : g.Scanned) {params : List (Tree .genericParam)}
    (h : g.genericParams input = .ok (params, final)) :
    final = input ∧ atOp "<" input.rest = false ∨
      ∃ used, input.rest = used ++ final.rest ∧ ∀ mark ∈ Mark.settled, mark.Leads used .shut := by
  obtain ⟨⟨params', tokens⟩, between, hcapture, hlast⟩ := bind_input_eq_ok_iff.1 h
  obtain ⟨last, hread, rfl, rfl⟩ := capture_eq_ok hcapture
  have hfinal : final.rest = last.rest ∧ (last = { input with taken := [] } → final = input) := by
    cases params' with
    | nil =>
      cases hlast
      exact ⟨rfl, fun h => by rw [h]⟩
    | cons first more =>
      cases hlast
      refine ⟨rfl, fun h => ?_⟩
      rw [h]
      rfl
  have hread := ahead_bind_eq_ok_iff.1 hread
  split at hread
  case isTrue =>
    obtain ⟨⟨used, written, hrest, -, hrun⟩, -⟩ :=
      scans_angled hread (fun hitem => (isParamScan_itemParam hg hitem).1)
        fun hitem => (isParamScan_itemParam hg hitem).2
    refine .inr ⟨used, by rw [hfinal.1]; exact hrest, fun mark hmark => ?_⟩
    obtain ⟨⟨mark', hused, rfl⟩, -⟩ := hrun mark hmark
    exact hused
  case isFalse hangle =>
    cases hread
    exact .inl ⟨hfinal.2 rfl, by simpa using hangle⟩

/-- Parameters that `for` introduces. -/
theorem scans_forParams? (hg : g.Scanned) {params : Tree (.maybe (.many .genericParam))}
    (h : g.forParams? input = .ok (params, final)) :
    final = input ∧ params = .absent ∧ atWord "for" input.rest = false ∨
      params.toOption.isSome = true ∧ Scans input final .Fresh (.After .bound) := by
  obtain ⟨found, between, hkeyword, hlast⟩ := bind_input_eq_ok_iff.1 h
  obtain ⟨rfl, rfl, hword⟩ | ⟨rfl, rest, hrest, rfl⟩ := keyword?_eq_ok hkeyword
  · cases hlast
    exact .inl ⟨rfl, rfl, hword⟩
  · obtain ⟨found, last, hangled, hlast⟩ := bind_input_eq_ok_iff.1 hlast
    cases hlast
    refine .inr ⟨rfl, ?_⟩
    have hfor : Scans input _ .Fresh (.After .binder) :=
      scans_token hrest rfl fun mark hmark => ⟨.binder, by
        cases mark <;> first | rfl | simp [Place.Fresh, Place.Free] at hmark, rfl⟩
    exact hfor.trans (scans_angled hangled (fun hitem => (isParamScan_forParam hg hitem).1)
      (by simp)).2

/-! ## Paths -/

/-- What a part of a path leaves. -/
def segmentMark : Tree .segment → Mark
  | .segment _ => .word
  | _ => .shut

/-- After the last part of a path. -/
def Place.PathEnd (segments : List (Tree .segment)) : Place := fun mark _ =>
  ∃ last, segments.getLast? = some last ∧ mark = segmentMark last

theorem Place.PathEnd.closed {segments : List (Tree .segment)} {mark : Mark} {rest : List Token}
    (h : Place.PathEnd segments mark rest) : Place.Closed mark rest := by
  obtain ⟨last, -, rfl⟩ := h
  unfold segmentMark
  split
  · exact Place.closed_word rest
  · exact Place.closed_shut rest

theorem scans_genericArg (hg : g.Scanned) {arg : Tree .genericArg}
    (h : g.genericArg input = .ok (arg, final)) :
    Scans input final (.After .angle) .Steady ∧
      (arg.isLifetimeArg = true → Scans input final .Steady .Steady) := by
  have h := ahead_bind_eq_ok_iff.1 h
  split at h
  case isTrue =>
    obtain ⟨name, between, hlifetime, h⟩ := bind_input_eq_ok_iff.1 h
    cases h
    have hscans := (scans_lifetime_steady hlifetime).widen fun _ _ => Place.Closed.steady
    exact ⟨hscans.narrow fun _ _ hmark => hmark.among (by decide), fun _ => hscans⟩
  case isFalse =>
    split at h
    case isTrue =>
      obtain ⟨value, between, hvalue, h⟩ := bind_input_eq_ok_iff.1 h
      cases h
      exact ⟨(scans_valueArg hvalue).widen fun _ _ => Place.Closed.steady,
        by simp [Tree.isLifetimeArg]⟩
    case isFalse =>
      obtain ⟨type, between, htype, h⟩ := bind_input_eq_ok_iff.1 h
      have hscans : Scans input between (.After .angle) .Steady :=
        ((hg.type htype).narrow fun _ _ hmark => hmark.free (by decide)).widen
          fun _ _ => Place.Done.steady
      cases hname : Grammar.bindingName? type with
      | none =>
        rw [hname] at h
        cases h
        exact ⟨hscans, by simp [Tree.isLifetimeArg]⟩
      | some binding =>
        rw [hname] at h
        obtain ⟨found, middle, hequals, hlast⟩ := bind_input_eq_ok_iff.1 h
        obtain ⟨rfl, hop⟩ | ⟨rfl, rfl, -⟩ := scans_op?_leaves hequals leaves_equals
        · have hop := hop.narrow fun _ _ => Place.Steady.settled
          have hlast := ahead_bind_eq_ok_iff.1 hlast
          split at hlast
          case isTrue =>
            obtain ⟨value, last, hvalue, hlast⟩ := bind_input_eq_ok_iff.1 hlast
            cases hlast
            exact ⟨(hscans.trans (hop.trans (scans_valueArg hvalue))).widen
              fun _ _ => Place.Closed.steady, by simp [Tree.isLifetimeArg]⟩
          case isFalse =>
            obtain ⟨bound, last, hbound, hlast⟩ := bind_input_eq_ok_iff.1 hlast
            cases hlast
            exact ⟨(hscans.trans (hop.andThen (fun _ _ hmark => hmark.free (by decide))
              (hg.type hbound))).widen fun _ _ => Place.Done.steady, by simp [Tree.isLifetimeArg]⟩
        · obtain ⟨found, middle', hcolon, hrest⟩ := bind_input_eq_ok_iff.1 hlast
          obtain ⟨rfl, hop⟩ | ⟨rfl, rfl, -⟩ := scans_op?_leaves hcolon leaves_colon
          · obtain ⟨bounds, last, hbounds, hrest⟩ := bind_input_eq_ok_iff.1 hrest
            cases hrest
            have hop := hop.narrow fun _ _ => Place.Steady.settled
            exact ⟨hscans.trans (hop.andThen (fun _ _ hmark => hmark.among (by decide))
              (hg.scans_chain hbounds)), by simp [Tree.isLifetimeArg]⟩
          · cases hrest
            exact ⟨hscans, by simp [Tree.isLifetimeArg]⟩

theorem scans_angledArgs (hg : g.Scanned) {args : List (Tree .genericArg)}
    (h : g.angledArgs input = .ok (args, final)) : Scans input final .Settled (.After .shut) :=
  (scans_angled h (fun hitem => (scans_genericArg hg hitem).1) fun hitem =>
    (scans_genericArg hg hitem).2).1

/-- A part of a path leaves a word, unless it has arguments. -/
theorem scans_segment (hg : g.Scanned) {inExpr : Bool} {segment : Tree .segment}
    (h : g.segment inExpr input = .ok (segment, final)) :
    Scans input final .Settled (.After (segmentMark segment)) := by
  have h := ahead_bind_eq_ok_iff.1 h
  split at h
  case isTrue hspecial =>
    obtain ⟨text, between, hword, h⟩ := bind_input_eq_ok_iff.1 h
    cases h
    refine scans_anyWord hword ?_
    obtain ⟨rest, hrest, -⟩ := anyWord_eq_ok hword
    rw [hrest] at hspecial
    have htext : text = "super" ∨ text = "self" ∨ text = "crate" ∨ text = "try" := by
      simpa [atWord, or_assoc] using hspecial
    obtain rfl | rfl | rfl | rfl := htext <;> decide
  case isFalse =>
    have hnamed : ∃ name named, Scans input named .Settled (.After .word) ∧ (do
        let tokens ← ahead
        if (!inExpr && atOp "<" tokens && !atOp "<=" tokens && !atOp "<<=" tokens) ||
            (atOp "::" tokens && atOp "<" (skip (skip tokens))) then
          let turbofish ← op? "::"
          return .segmentOf name turbofish (.ofList (← g.angledArgs))
        return .segment name : Parser (Tree .segment)) named = .ok (segment, final) := by
      split at h
      case isTrue hself =>
        obtain ⟨name, named, hword, h⟩ := bind_input_eq_ok_iff.1 h
        refine ⟨name, named, scans_anyWord hword ?_, h⟩
        obtain ⟨rest, hrest, -⟩ := anyWord_eq_ok hword
        rw [hrest] at hself
        obtain rfl : name = "Self" := by simpa [atWord] using hself
        decide
      case isFalse =>
        obtain ⟨name, named, hname, h⟩ := bind_input_eq_ok_iff.1 h
        exact ⟨name, named, scans_name hname, h⟩
    obtain ⟨name, named, hscans, h⟩ := hnamed
    have h := ahead_bind_eq_ok_iff.1 h
    split at h
    case isTrue =>
      obtain ⟨turbofish, opened, hop, hargs⟩ := bind_input_eq_ok_iff.1 h
      obtain ⟨args, last, hangled, hargs⟩ := bind_input_eq_ok_iff.1 hargs
      cases hargs
      have hangled := scans_angledArgs hg hangled
      obtain ⟨rfl, hcolons⟩ | ⟨rfl, rfl, -⟩ := scans_op?_leaves hop leaves_colons
      · have hcolons := hcolons.andThen (fun _ _ hmark => hmark.among (by decide)) hangled
        exact hscans.andThen (fun _ _ hmark => hmark.among (by decide)) hcolons
      · exact hscans.andThen (fun _ _ hmark => hmark.among (by decide)) hangled
    case isFalse =>
      cases h
      exact hscans

/-- The parts of a path after one that has been read. -/
theorem scans_moreSegmentsUpTo {step : Parser (Option (Tree .segment))}
    (hstep : ∀ {input final found}, step input = .ok (found, final) →
      found = none ∧ final = input ∨
        ∃ segment, found = some segment ∧ Scans input final .Settled (.After (segmentMark segment)))
    {more : List (Tree .segment)} {bound : Nat} (before : List (Tree .segment))
    (h : collectUpTo step bound input = .ok (more, final)) :
    Scans input final (.PathEnd before) (.PathEnd (before ++ more)) := by
  induction bound generalizing input more before with
  | zero =>
    cases h
    rw [List.append_nil]
    exact .refl _ _
  | succ bound ih =>
    obtain ⟨found, between, hfound, hrest⟩ := bind_input_eq_ok_iff.1 h
    obtain ⟨rfl, rfl⟩ | ⟨segment, rfl, hscans⟩ := hstep hfound
    · cases hrest
      rw [List.append_nil]
      exact .refl _ _
    · obtain ⟨segments, last, hmore, hrest⟩ := bind_input_eq_ok_iff.1 hrest
      cases hrest
      have hrest := ih (before ++ [segment]) hmore
      rw [List.append_assoc] at hrest
      refine (hscans.narrow fun _ _ hmark => ?_).andThen (fun mark _ hmark => ?_) hrest
      · exact hmark.closed.steady.settled
      · exact ⟨segment, by simp, hmark.eq⟩

theorem scans_moreSegments (hg : g.Scanned) {inExpr : Bool} {more : List (Tree .segment)}
    (before : List (Tree .segment)) (h : g.moreSegments inExpr input = .ok (more, final)) :
    Scans input final (.PathEnd before) (.PathEnd (before ++ more)) := by
  refine scans_moreSegmentsUpTo ?_ before (ahead_bind_eq_ok_iff.1 h)
  intro input final found hstep
  have hstep := ahead_bind_eq_ok_iff.1 hstep
  split at hstep
  case isTrue =>
    cases hstep
    exact .inl ⟨rfl, rfl⟩
  case isFalse =>
    obtain ⟨_, opened, hop, hrest⟩ := bind_input_eq_ok_iff.1 hstep
    obtain ⟨segment, last, hsegment, hrest⟩ := bind_input_eq_ok_iff.1 hrest
    cases hrest
    exact .inr ⟨segment, rfl, (scans_op_leaves hop leaves_colons).andThen
      (fun _ _ hmark => hmark.among (by decide)) (scans_segment hg hsegment)⟩

theorem scans_pathParts (hg : g.Scanned) {inExpr rooted : Bool} {segments : List (Tree .segment)}
    (h : g.pathParts inExpr input = .ok ((rooted, segments), final)) :
    Scans input final .Settled (.PathEnd segments) := by
  obtain ⟨found, opened, hop, hrest⟩ := bind_input_eq_ok_iff.1 h
  obtain ⟨first, between, hfirst, hrest⟩ := bind_input_eq_ok_iff.1 hrest
  obtain ⟨more, last, hmore, hrest⟩ := bind_input_eq_ok_iff.1 hrest
  cases hrest
  have hparts : Scans opened final .Settled (.PathEnd (first :: more)) :=
    (scans_segment hg hfirst).andThen (fun mark _ hmark => ⟨first, rfl, hmark.eq⟩)
      (scans_moreSegments hg [first] hmore)
  obtain ⟨-, hcolons⟩ | ⟨-, rfl, -⟩ := scans_op?_leaves hop leaves_colons
  · exact hcolons.andThen (fun _ _ hmark => hmark.among (by decide)) hparts
  · exact hparts

theorem scans_path (hg : g.Scanned) {inExpr : Bool} {path : Tree .path}
    (h : g.path inExpr input = .ok (path, final)) :
    ∃ rooted segments, path = .path .absent 0 rooted (.ofList segments) ∧
      Scans input final .Settled (.PathEnd segments) := by
  obtain ⟨⟨rooted, segments⟩, last, hparts, hrest⟩ := bind_input_eq_ok_iff.1 h
  cases hrest
  exact ⟨rooted, segments, rfl, scans_pathParts hg hparts⟩

/-- A path that a type qualifies is complete. -/
theorem scans_qualifiedPath (hg : g.Scanned) {inExpr : Bool} {path : Tree .path}
    (h : g.qualifiedPath inExpr input = .ok (path, final)) :
    (∃ self position rooted segments, path = .path (.present self) position rooted segments ∧
        Scans input final .Settled .Closed) ∨
      ∃ rooted segments, path = .path .absent 0 rooted (.ofList segments) ∧
        Scans input final .Settled (.PathEnd segments) := by
  have h := ahead_bind_eq_ok_iff.1 h
  split at h
  case isTrue => exact .inr (scans_path hg h)
  case isFalse =>
    obtain ⟨_, opened, hopen, hrest⟩ := bind_input_eq_ok_iff.1 h
    obtain ⟨self, typed, htype, hrest⟩ := bind_input_eq_ok_iff.1 hrest
    obtain ⟨⟨rooted, trait⟩, seen, hseen, hrest⟩ := bind_input_eq_ok_iff.1 hrest
    obtain ⟨_, closed, hclose, hrest⟩ := bind_input_eq_ok_iff.1 hrest
    obtain ⟨_, coloned, hcolons, hrest⟩ := bind_input_eq_ok_iff.1 hrest
    obtain ⟨first, between, hfirst, hrest⟩ := bind_input_eq_ok_iff.1 hrest
    obtain ⟨more, last, hmore, hrest⟩ := bind_input_eq_ok_iff.1 hrest
    cases hrest
    refine .inl ⟨self, _, _, _, rfl, ?_⟩
    have hseen : Scans typed seen .Done .Steady := by
      obtain ⟨found, middle, hkeyword, hparts⟩ := bind_input_eq_ok_iff.1 hseen
      obtain ⟨rfl, has⟩ | ⟨rfl, rfl, -⟩ := scans_keyword?_leaves hkeyword
        (leaves_opener (by decide))
      · exact ((has.narrow fun _ _ hmark => hmark.steady.settled).andThen
          (fun _ _ hmark => hmark.among (by decide)) (scans_pathParts hg hparts)).widen
            fun _ _ hmark => hmark.closed.steady
      · cases hparts
        exact (Scans.refl _ .Steady).narrow fun _ _ => Place.Done.steady
    have hmore : Scans between final (.PathEnd [first]) (.PathEnd ([first] ++ more)) := by
      refine scans_moreSegmentsUpTo ?_ [first] (ahead_bind_eq_ok_iff.1 hmore)
      intro input final found hstep
      obtain ⟨colons, opened, hop, hpart⟩ := bind_input_eq_ok_iff.1 hstep
      obtain ⟨rfl, hscans⟩ | ⟨rfl, rfl, -⟩ := scans_op?_leaves hop leaves_colons
      · obtain ⟨segment, last, hsegment, hpart⟩ := bind_input_eq_ok_iff.1 hpart
        cases hpart
        exact .inr ⟨segment, rfl, hscans.andThen (fun _ _ hmark => hmark.among (by decide))
          (scans_segment hg hsegment)⟩
      · cases hpart
        exact .inl ⟨rfl, rfl⟩
    have hparts := (scans_segment hg hfirst).andThen
      (fun mark _ hmark => ⟨first, rfl, hmark.eq⟩) hmore
    have hself : Scans opened seen (.After .angle) .Steady :=
      ((hg.type htype).narrow fun _ _ hmark => hmark.free (by decide)).trans hseen
    have hcoloned : Scans closed final .Settled .Closed :=
      ((scans_op_leaves hcolons leaves_colons).andThen
        (fun _ _ hmark => hmark.among (by decide)) hparts).widen fun _ _ => Place.PathEnd.closed
    exact (scans_inBrackets hopen hself hclose).1.andThen
      (fun _ _ hmark => hmark.among (by decide)) hcoloned

/-! ## Bounds -/

theorem scans_arrowType? (hg : g.Scanned) {plus : Bool} {type : Option Ty}
    (h : g.arrowType? plus input = .ok (type, final)) : Scans input final .Closed .Done := by
  obtain ⟨found, opened, hop, hrest⟩ := bind_input_eq_ok_iff.1 h
  obtain ⟨rfl, harrow⟩ | ⟨rfl, rfl, -⟩ := scans_op?_leaves hop leaves_arrow
  · obtain ⟨type, last, htype, hrest⟩ := bind_input_eq_ok_iff.1 hrest
    cases hrest
    exact (harrow.narrow fun _ _ hmark => hmark.steady.settled).andThen
      (fun _ _ hmark => hmark.free (by decide)) (hg.type htype)
  · cases hrest
    exact (Scans.refl _ .Done).narrow fun _ _ => Place.Closed.done

theorem scans_withCallArgs (hg : g.Scanned) {segments found : List (Tree .segment)}
    (h : g.withCallArgs segments input = .ok (found, final)) : Scans input final .Closed .Done := by
  have h := ahead_bind_eq_ok_iff.1 h
  have hsame : Scans input input .Closed .Done :=
    (Scans.refl _ .Done).narrow fun _ _ => Place.Closed.done
  split at h
  case isTrue =>
    cases h
    exact hsame
  case isFalse =>
    have hcall : ∀ {name}, (do
        let _ ← capture (op? "::")
        let inputs ← inside .parenthesis (commaList (g.type true))
        let output ← g.arrowType? false
        return segments.dropLast ++ [.segmentCall name (.ofList inputs) (.ofOption output)] :
          Parser (List (Tree .segment))) input = .ok (found, final) →
        Scans input final .Closed .Done := by
      intro name h
      obtain ⟨_, opened, hcapture, hrest⟩ := bind_input_eq_ok_iff.1 h
      obtain ⟨inputs, between, hinside, hrest⟩ := bind_input_eq_ok_iff.1 hrest
      obtain ⟨output, last, harrow, hrest⟩ := bind_input_eq_ok_iff.1 hrest
      cases hrest
      have hopened : Scans input opened .Closed .Settled := by
        refine scans_capture hcapture (fun hop => ?_) fun _ hmark => hmark.steady.settled
        obtain ⟨-, hscans⟩ | ⟨-, rfl, -⟩ := scans_op?_leaves hop leaves_colons
        · exact (hscans.narrow fun _ _ hmark => hmark.steady.settled).widen
            fun _ _ hmark => hmark.among (by decide)
        · exact (Scans.refl _ .Settled).narrow fun _ _ hmark => hmark.steady.settled
      exact hopened.trans ((scans_inside hinside (by decide)).andThen
        (fun _ _ hmark => hmark.among (by decide)) (scans_arrowType? hg harrow))
    generalize segments.getLast? = last at h
    split at h
    case h_1 => exact hcall h
    case h_2 => exact hcall h
    case h_3 =>
      cases h
      exact hsame

/-- The mark of a trait that is `const`. -/
theorem scans_constMark? {mark : Option String} (h : Grammar.constMark? input = .ok (mark, final)) :
    Scans input final .Unshut .Unshut := by
  have h := ahead_bind_eq_ok_iff.1 h
  split at h
  case isTrue =>
    obtain ⟨_, between, hinside, h⟩ := bind_input_eq_ok_iff.1 h
    cases h
    exact ((scans_inside hinside (by decide)).narrow fun _ _ => Place.Unshut.settled).widen
      fun _ _ hmark => hmark.among (by decide)
  case isFalse =>
    obtain ⟨found, between, hkeyword, hrest⟩ := bind_input_eq_ok_iff.1 h
    have hscans : Scans input between .Unshut .Unshut :=
      scans_keyword? hkeyword (fun _ mark hmark => ⟨.opened, by
        cases mark <;> first | rfl | simp [Place.Among, Mark.unshut] at hmark,
        List.mem_of_elem_eq_true rfl⟩) fun _ _ => id
    cases found <;> (cases hrest; exact hscans)

/-- The path of a bound and the types of its call are scanned, whatever is checked after them. -/
theorem scans_boundPath (hg : g.Scanned) {parenthesized isMaybe : Bool} {mark : Option String}
    {params : Tree (.maybe (.many .genericParam))} {bound : Option (Tree .bound)}
    (h : (do
      let (rooted, segments) ← g.pathParts false
      let segments ← g.withCallArgs segments
      if params.toOption.isSome && isMaybe then
        broken (code "for<...>" ++ " binder not allowed with " ++ code "?" ++
          " trait polarity modifier")
      if mark.isSome then return none
      return some (.traitBound parenthesized isMaybe params
        (.path .absent 0 rooted (.ofList segments))) : Parser (Option (Tree .bound))) input =
        .ok (bound, final)) : Scans input final .Settled .Done := by
  obtain ⟨⟨rooted, segments⟩, parted, hparts, h⟩ := bind_input_eq_ok_iff.1 h
  obtain ⟨segments', called, hcalled, h⟩ := bind_input_eq_ok_iff.1 h
  have hscans := (scans_pathParts hg hparts).andThen (fun _ _ => Place.PathEnd.closed)
    (scans_withCallArgs hg hcalled)
  split at h
  case isTrue => cases h
  case isFalse =>
    split at h <;> (cases h; exact hscans)

/-- A bound is scanned from its question mark on. -/
theorem scans_maybeBound (hg : g.Scanned) {parenthesized : Bool} {mark : Option String}
    {early : Tree (.maybe (.many .genericParam))} {bound : Option (Tree .bound)}
    (h : (do
      let isMaybe ← op? "?"
      let params ← if early.toOption.isNone && isMaybe then g.forParams? else pure early
      let (rooted, segments) ← g.pathParts false
      let segments ← g.withCallArgs segments
      if params.toOption.isSome && isMaybe then
        broken (code "for<...>" ++ " binder not allowed with " ++ code "?" ++
          " trait polarity modifier")
      if mark.isSome then return none
      return some (.traitBound parenthesized isMaybe params
        (.path .absent 0 rooted (.ofList segments))) : Parser (Option (Tree .bound))) input =
        .ok (bound, final)) : Scans input final .Unshut .Done := by
  obtain ⟨isMaybe, asked, hop, hrest⟩ := bind_input_eq_ok_iff.1 h
  have hasked : Scans input asked .Unshut .Settled ∧
      (isMaybe = true → Scans input asked .Unshut .Fresh) := by
    have hopened : isMaybe = true → Scans input asked .Unshut (.After .opened) := fun hmaybe =>
      scans_op? hop (fun _ mark hmark => ⟨.opened, by
        cases mark <;> first | rfl | simp [Place.Among, Mark.unshut] at hmark, rfl⟩)
          (by simp [hmaybe])
    cases isMaybe with
    | true =>
      exact ⟨(hopened rfl).widen fun _ _ hmark => hmark.among (by decide), fun _ =>
        (hopened rfl).widen fun _ _ hmark => .inr (hmark.free (by decide))⟩
    | false =>
      obtain ⟨rfl, -⟩ := eq_of_op?_eq_ok_false hop
      exact ⟨(Scans.refl _ .Settled).narrow fun _ _ => Place.Unshut.settled, by simp⟩
  split at hrest
  case isTrue hlate =>
    obtain ⟨params, given, hgiven, hlast⟩ := bind_input_eq_ok_iff.1 hrest
    have hmaybe : isMaybe = true := (Bool.and_eq_true_iff.1 hlate).2
    obtain ⟨rfl, -, -⟩ | ⟨-, hscans⟩ := scans_forParams? hg hgiven
    · exact hasked.1.trans (scans_boundPath hg hlast)
    · exact (hasked.2 hmaybe).trans (hscans.andThen (fun _ _ hmark => hmark.among (by decide))
        (scans_boundPath hg hlast))
  case isFalse => exact hasked.1.trans (scans_boundPath hg hrest)

theorem scans_traitBound? (hg : g.Scanned) {place : BoundPlace} {parenthesized : Bool}
    {bound : Option (Tree .bound)}
    (h : g.traitBound? place parenthesized input = .ok (bound, final)) :
    Scans input final .Free .Done := by
  obtain ⟨early, between, hearly, hrest⟩ := bind_input_eq_ok_iff.1 h
  obtain ⟨mark, marked, hmark, hrest⟩ := bind_input_eq_ok_iff.1 hrest
  have hstart : Scans input marked .Free .Unshut := by
    refine Scans.trans ?_ (scans_constMark? hmark)
    obtain ⟨rfl, -, -⟩ | ⟨-, hscans⟩ := scans_forParams? hg hearly
    · exact (Scans.refl _ .Unshut).narrow fun _ _ => Place.Free.unshut
    · exact (hscans.narrow fun _ _ => .inr).widen fun _ _ hmark => hmark.among (by decide)
  refine hstart.trans ?_
  cases mark with
  | none => exact scans_maybeBound hg hrest
  | some text =>
    by_cases hplace : place = .object
    · simp only [hplace, if_true] at hrest
      cases hrest
    · simp only [hplace, if_false] at hrest
      exact scans_maybeBound hg hrest

theorem scans_capturedName {name : String} (h : Grammar.capturedName input = .ok (name, final)) :
    Scans input final .Steady .Closed := by
  have h := ahead_bind_eq_ok_iff.1 h
  have hend : ∀ {start : Input} {name' : String}, (do
      let tokens ← ahead
      if !atOp "," tokens && !atOp ">" tokens then expected [code ",", code ">"]
      return name' : Parser String) start = .ok (name, final) → final = start := by
    intro start name' h
    have h := ahead_bind_eq_ok_iff.1 h
    split at h
    case isTrue => cases h
    case isFalse => cases h; rfl
  split at h
  case isTrue =>
    obtain ⟨text, last, hlifetime, hrest⟩ := bind_input_eq_ok_iff.1 h
    obtain rfl : final = last := hend hrest
    exact scans_lifetime_steady hlifetime
  case isFalse =>
    split at h
    case isTrue hword =>
      obtain ⟨name', between, hname, hrest⟩ := bind_input_eq_ok_iff.1 h
      obtain rfl := hend hrest
      refine ((scans_anyWord hname ?_).narrow fun _ _ => Place.Steady.settled).widen
        fun _ _ hmark => hmark.among (by decide)
      obtain ⟨rest, htokens, -⟩ := anyWord_eq_ok hname
      rw [htokens] at hword
      obtain hword | hself : isName name' = true ∨ name' = "Self" := by
        simpa [atName, atWord] using hword
      · exact notMem_of_isName hword
      · rw [hself]
        decide
    case isFalse =>
      obtain ⟨_, _, hname, _⟩ := bind_input_eq_ok_iff.1 h
      cases hname

theorem scans_capturedNames {names : List String}
    (h : Grammar.capturedNames input = .ok (names, final)) :
    Scans input final .Settled (.After .shut) := by
  refine (scans_angled h (fun hitem => ?_) fun hitem _ => ?_).1
  · exact ((scans_capturedName hitem).narrow fun _ _ hmark => hmark.among (by decide)).widen
      fun _ _ => Place.Closed.steady
  · exact (scans_capturedName hitem).widen fun _ _ => Place.Closed.steady

/-- Where a bound may begin. At the start only a lifetime may. -/
def Place.Bounded : Place := fun mark rest =>
  Free mark rest ∨ mark = .start ∧ atLifetime rest = true

theorem Place.Bounded.fresh {mark : Mark} {rest : List Token} (h : Place.Bounded mark rest) :
    Place.Fresh mark rest := by
  obtain h | ⟨h, -⟩ := h
  · exact .inr h
  · exact .inl h

/-- Every bound is complete. -/
theorem scans_readBound (hg : g.Scanned) {place : BoundPlace} {bound : Tree .bound}
    (h : g.readBound place input = .ok (bound, final)) : Scans input final .Bounded .Done := by
  have h := ahead_bind_eq_ok_iff.1 h
  split at h
  case isTrue hlifetime =>
    obtain ⟨name, last, hname, hrest⟩ := bind_input_eq_ok_iff.1 h
    cases hrest
    refine scans_lifetime hname fun mark hmark => ?_
    have href : mark ≠ .ref := by
      rintro rfl
      simp [Place.Bounded, Place.Free, hlifetime] at hmark
    exact ⟨.closed, run_lifetime name hmark.fresh.settled href, .inl (Place.closed_closed _)⟩
  case isFalse hlifetime =>
    have hbounded : ∀ mark, Place.Bounded mark input.rest → Place.Free mark input.rest := by
      rintro mark (h | ⟨-, h⟩)
      · exact h
      · exact absurd h hlifetime
    refine Scans.mono ?_ hbounded fun _ => id
    obtain ⟨found, between, hkeyword, hrest⟩ := bind_input_eq_ok_iff.1 h
    obtain ⟨rfl, huse⟩ | ⟨rfl, rfl, -⟩ :=
      scans_keyword?_leaves hkeyword (leaves_opener (by decide))
    · obtain ⟨names, last, hnames, hrest⟩ := bind_input_eq_ok_iff.1 hrest
      have hscans := (huse.narrow fun _ _ => Place.Free.settled).andThen
        (fun _ _ hmark => hmark.among (by decide)) (scans_capturedNames hnames)
      split at hrest
      case isTrue =>
        cases hrest
        exact hscans.widen fun _ _ hmark => .inl (hmark.among (by decide))
      case isFalse => cases hrest
    · refine scans_orRaw hrest fun hread => ?_
      split at hread
      case isTrue =>
        exact ((scans_inside hread (by decide)).narrow fun _ _ => Place.Free.settled).widen
          fun _ _ hmark => .inl (hmark.among (by decide))
      case isFalse => exact scans_traitBound? hg hread

theorem Place.After.bounded {mark mark' : Mark} {rest : List Token}
    (h : Place.After mark' mark rest)
    (hmark : mark' ∈ [.opened, .angle, .plus]) : Place.Bounded mark rest :=
  .inl (h.free hmark)

theorem scans_plus (h : op "+" input = .ok ((), final)) :
    Scans input final .Done (.After .plus) :=
  (scans_op_leaves h leaves_plus).narrow fun _ _ hmark => hmark.steady.settled

theorem atAnyWord_eq_false_of_atBound {place : BoundPlace} {rest : List Token}
    (h : Grammar.atBound place rest = false) : atAnyWord rest = false := by
  simp only [Grammar.atBound, Bool.or_eq_false_iff] at h
  exact h.1.1.1.1.1

/-- Bounds with plus signs between them are complete, and no word follows a plus sign at their
end. -/
theorem scans_bounds (hg : g.Scanned) {place : BoundPlace} {plus : Bool}
    {bounds : List (Tree .bound)} (h : g.bounds place plus input = .ok (bounds, final)) :
    Scans input final .Bounded .Done := by
  obtain ⟨first, between, hfirst, hrest⟩ := bind_input_eq_ok_iff.1 h
  obtain ⟨more, last, hmore, hrest⟩ := bind_input_eq_ok_iff.1 hrest
  cases hrest
  refine (scans_readBound hg hfirst).trans (scans_collect hmore ?_ ?_ fun _ _ => id)
  · intro input final bound hstep
    have hstep := ahead_bind_eq_ok_iff.1 hstep
    split at hstep
    case isTrue => cases hstep
    case isFalse =>
      obtain ⟨_, plused, hop, hrest⟩ := bind_input_eq_ok_iff.1 hstep
      have hrest := ahead_bind_eq_ok_iff.1 hrest
      split at hrest
      case isTrue =>
        obtain ⟨bound, last, hbound, hrest⟩ := bind_input_eq_ok_iff.1 hrest
        cases hrest
        exact (scans_plus hop).andThen (fun _ _ hmark => hmark.bounded (by decide))
          (scans_readBound hg hbound)
      case isFalse => cases hrest
  · intro input final hstep
    have hstep := ahead_bind_eq_ok_iff.1 hstep
    split at hstep
    case isTrue =>
      cases hstep
      exact .refl _ _
    case isFalse =>
      obtain ⟨_, plused, hop, hrest⟩ := bind_input_eq_ok_iff.1 hstep
      have hrest := ahead_bind_eq_ok_iff.1 hrest
      split at hrest
      case isTrue =>
        obtain ⟨bound, last, hbound, hrest⟩ := bind_input_eq_ok_iff.1 hrest
        cases hrest
      case isFalse hbound =>
        cases hrest
        have hword := atAnyWord_eq_false_of_atBound (by simpa using hbound)
        exact (scans_plus hop).mono (fun _ => id) fun _ hmark => .inr ⟨hmark, hword⟩

/-- Further bounds after the first. -/
theorem scans_plusBounds (hg : g.Scanned) {bounds : List (Tree .bound)}
    (h : g.plusBounds input = .ok (bounds, final)) : Scans input final .Done .Done := by
  refine scans_collect h ?_ ?_ fun _ _ => id
  · intro input final bound hstep
    obtain ⟨found, plused, hop, hrest⟩ := bind_input_eq_ok_iff.1 hstep
    obtain ⟨rfl, hscans⟩ | ⟨rfl, rfl, -⟩ := scans_op?_leaves hop leaves_plus
    · obtain ⟨bound, last, hbound, hrest⟩ := bind_input_eq_ok_iff.1 hrest
      cases hrest
      exact (hscans.narrow fun _ _ hmark => hmark.steady.settled).andThen
        (fun _ _ hmark => hmark.bounded (by decide)) (scans_readBound hg hbound)
    · cases hrest
  · intro input final hstep
    obtain ⟨found, plused, hop, hrest⟩ := bind_input_eq_ok_iff.1 hstep
    obtain ⟨rfl, hscans⟩ | ⟨rfl, rfl, -⟩ := scans_op?_leaves hop leaves_plus
    · obtain ⟨bound, last, hbound, hrest⟩ := bind_input_eq_ok_iff.1 hrest
      cases hrest
    · cases hrest
      exact .refl _ _

theorem scans_looseBounds (hg : g.Scanned) {bounds : List (Tree .bound)}
    (h : g.looseBounds input = .ok (bounds, final)) : Scans input final .Done .Done := by
  refine scans_collect h ?_ ?_ fun _ _ => id
  · intro input final bound hstep
    obtain ⟨found, plused, hop, hrest⟩ := bind_input_eq_ok_iff.1 hstep
    obtain ⟨rfl, hscans⟩ | ⟨rfl, rfl, -⟩ := scans_op?_leaves hop leaves_plus
    · have hrest := ahead_bind_eq_ok_iff.1 hrest
      split at hrest
      case isTrue =>
        obtain ⟨bound, last, hbound, hrest⟩ := bind_input_eq_ok_iff.1 hrest
        cases hrest
        exact (hscans.narrow fun _ _ hmark => hmark.steady.settled).andThen
          (fun _ _ hmark => hmark.bounded (by decide)) (scans_readBound hg hbound)
      case isFalse => cases hrest
    · cases hrest
  · intro input final hstep
    obtain ⟨found, plused, hop, hrest⟩ := bind_input_eq_ok_iff.1 hstep
    obtain ⟨rfl, hscans⟩ | ⟨rfl, rfl, -⟩ := scans_op?_leaves hop leaves_plus
    · have hrest := ahead_bind_eq_ok_iff.1 hrest
      split at hrest
      case isTrue =>
        obtain ⟨bound, last, hbound, hrest⟩ := bind_input_eq_ok_iff.1 hrest
        cases hrest
      case isFalse hbound =>
        cases hrest
        have hword := atAnyWord_eq_false_of_atBound (by simpa using hbound)
        exact hscans.mono (fun _ hmark => hmark.steady.settled) fun _ hmark =>
          .inr ⟨hmark, hword⟩
    · cases hrest
      exact .refl _ _

theorem scans_objectBounds (hg : g.Scanned) {plus : Bool} {bounds : List (Tree .bound)}
    (h : g.objectBounds plus input = .ok (bounds, final)) : Scans input final .Bounded .Done := by
  obtain ⟨found, last, hbounds, hrest⟩ := bind_input_eq_ok_iff.1 h
  split at hrest
  case isTrue =>
    cases hrest
    exact scans_bounds hg hbounds
  case isFalse => cases hrest

theorem scans_implBounds (hg : g.Scanned) {plus : Bool} {bounds : List (Tree .bound)}
    (h : g.implBounds plus input = .ok (bounds, final)) : Scans input final .Bounded .Done := by
  obtain ⟨found, last, hbounds, hrest⟩ := bind_input_eq_ok_iff.1 h
  split at hrest
  case isTrue =>
    cases hrest
    exact scans_bounds hg hbounds
  case isFalse => cases hrest

end Readers

end ForeignWrap.Syntax
