import ForeignWrap.Directive.Validity
import ForeignWrap.Proofs.Results
import ForeignWrap.Proofs.Text.Cut
import Mathlib.Data.List.Nodup

/-!
# What valid directives are

The rules for the arguments of a directive, said without the order in which they are checked. Each
check passes exactly when its share of the rules is kept.

## Main definitions

* `ForeignWrap.Directive.Marked`: a name with its marker, if it has one.
* `ForeignWrap.Directive.ForeignArg.Refers`: which host argument an argument of the call names.
* `ForeignWrap.Directive.Valid`: the rules.
* `ForeignWrap.Directive.validate_eq_ok_iff`: the directives that are found to be valid are valid.
-/

namespace ForeignWrap.Directive

/-! ## Markers -/

/-- `text` is the name `base`, with one marker after it if it is marked. -/
inductive Marked : (text base : String) → (marked : Bool) → Prop where
  | marker {base : String} : Marked (base ++ variadicMarker) base true
  | bare {text : String} : (∀ base, text ≠ base ++ variadicMarker) → Marked text text false

theorem splitMarker_eq_iff {text base : String} {marked : Bool} :
    splitMarker text = (base, marked) ↔ Marked text base marked := by
  unfold splitMarker
  constructor
  · split
    case h_1 name h =>
      rintro ⟨⟩
      rw [Text.dropEnd?_eq_some_iff.1 h]
      exact .marker
    case h_2 h =>
      rintro ⟨⟩
      exact .bare (Text.dropEnd?_eq_none_iff.1 h)
  · rintro (_ | h)
    · rw [Text.dropEnd?_eq_some_iff.2 rfl]
    · rw [Text.dropEnd?_eq_none_iff.2 h]

/-- An argument of the call names the host argument `base`, and marks it as a sequence or not. -/
inductive ForeignArg.Refers : ForeignArg → (base : String) → (marked : Bool) → Prop where
  | reference {text base : String} {marked : Bool} {cast : Option String} :
      Marked text base marked → Refers (.reference text cast) base marked

theorem not_refers_literal {code base : String} {marked : Bool} :
    ¬ (ForeignArg.literal code).Refers base marked := by
  rintro ⟨⟩

theorem refers_reference_iff {text base : String} {cast : Option String} {marked : Bool} :
    (ForeignArg.reference text cast).Refers base marked ↔ splitMarker text = (base, marked) := by
  rw [splitMarker_eq_iff]
  exact ⟨fun ⟨h⟩ => h, .reference⟩

theorem refersTo_iff {name : String} {arg : ForeignArg} :
    arg.refersTo name = true ↔ ∃ marked, arg.Refers name marked := by
  cases arg with
  | literal code => simp [ForeignArg.refersTo, not_refers_literal]
  | reference text cast => simp [ForeignArg.refersTo, refers_reference_iff, Prod.ext_iff]

/-! ## The rules -/

/-- The rules for the arguments of a directive. -/
structure Valid (d : Directive) : Prop where
  /-- Some type has the method. -/
  hosts_ne_nil : d.hostArgs ≠ []
  receiver_bare : ∀ receiver, d.hostArgs.head? = some receiver → receiver.variadic = false
  /-- Only the last host argument can be a sequence. -/
  bare_before_last : ∀ host ∈ d.hostArgs.dropLast, host.variadic = false
  names_nodup : (d.hostArgs.map (·.name)).Nodup
  /-- What the call refers to is there, and is marked just where it is a sequence. -/
  refers_host : ∀ arg ∈ d.foreignArgs, ∀ base marked, arg.Refers base marked →
    ∃ host ∈ d.hostArgs, host.name = base ∧ host.variadic = marked
  /-- A sequence is given to the call last, and only there. -/
  sequence_last : ∀ host ∈ d.hostArgs, host.variadic = true →
    ∃ before last, d.foreignArgs = before ++ [last] ∧ last.Refers host.name true ∧
      ∀ arg ∈ before, ∀ marked, ¬ arg.Refers host.name marked

theorem Valid.exists_receiver {d : Directive} (h : Valid d) :
    ∃ receiver, d.receiver? = some receiver ∧ d.hostArgs = receiver :: d.params := by
  obtain ⟨receiver, rest, hhosts⟩ := List.exists_cons_of_ne_nil h.hosts_ne_nil
  exact ⟨receiver, by simp [receiver?, hhosts], by simp [params, hhosts]⟩

/-! ## The checks -/

/-- The check of the host arguments carries the names before them. -/
theorem checkHostArgs_eq_ok_iff {earlier : List String} {hosts : List HostArg} :
    checkHostArgs earlier hosts = .ok () ↔
      (∀ host ∈ hosts.dropLast, host.variadic = false) ∧ (hosts.map (·.name)).Nodup ∧
        ∀ host ∈ hosts, host.name ∉ earlier := by
  induction hosts generalizing earlier with
  | nil => simp [checkHostArgs]
  | cons host rest ih =>
    unfold checkHostArgs
    split
    case isTrue hmarked =>
      -- A sequence that is not last stands before the last one.
      simp only [Bool.and_eq_true, Bool.not_eq_true', List.isEmpty_eq_false_iff] at hmarked
      simp [List.dropLast_cons_of_ne_nil hmarked.2, hmarked.1]
    case isFalse hmarked =>
      split
      case isTrue hseen => simp [hseen]
      case isFalse hseen =>
        have hdrop : (∀ h ∈ (host :: rest).dropLast, h.variadic = false) ↔
            ∀ h ∈ rest.dropLast, h.variadic = false := by
          cases rest with
          | nil => simp
          | cons next rest =>
            have hbare : host.variadic = false := by simpa using hmarked
            simp [hbare]
        simp only [ih, hdrop, List.map_cons, List.nodup_cons, List.mem_map, List.mem_cons, not_or,
          not_exists, not_and, forall_eq_or_imp]
        constructor
        · rintro ⟨hbare, hnodup, hnew⟩
          exact ⟨hbare, ⟨fun h hh => (hnew h hh).1, hnodup⟩, hseen, fun h hh => (hnew h hh).2⟩
        · rintro ⟨hbare, ⟨hhost, hnodup⟩, -, hnew⟩
          exact ⟨hbare, hnodup, fun h hh => ⟨hhost h hh, hnew h hh⟩⟩

theorem checkForeignArg_eq_ok_iff {names : List String} {sequence : Option String} {isLast : Bool}
    {arg : ForeignArg} :
    checkForeignArg names sequence isLast arg = .ok () ↔
      ∀ base marked, arg.Refers base marked →
        base ∈ names ∧ (marked = true ↔ sequence = some base) ∧
          (marked = true → isLast = true) := by
  cases arg with
  | literal code => simp [checkForeignArg, not_refers_literal]
  | reference text cast =>
    simp only [refers_reference_iff]
    cases hsplit : splitMarker text with
    | mk base marked =>
      by_cases hname : base ∈ names
      · by_cases hseq : sequence = some base <;> cases marked <;> cases isLast <;>
          simp [checkForeignArg, hsplit, hname, hseq]
      · simp [checkForeignArg, hsplit, hname]

/-- The arguments of the call are checked one by one, the last one as such. -/
theorem checkForeignArgs_eq_ok_iff {names : List String} {sequence : Option String}
    {args : List ForeignArg} :
    checkForeignArgs names sequence args = .ok () ↔
      ∀ before arg after, args = before ++ arg :: after →
        checkForeignArg names sequence after.isEmpty arg = .ok () := by
  induction args with
  | nil => simp [checkForeignArgs]
  | cons first rest ih =>
    simp only [checkForeignArgs, check_eq_ok_iff, ih]
    constructor
    · rintro ⟨hfirst, hrest⟩ before arg after hsplit
      cases before with
      | nil =>
        obtain ⟨rfl, rfl⟩ := List.cons.inj hsplit
        exact hfirst
      | cons _ before => exact hrest before arg after (List.cons.inj hsplit).2
    · intro hall
      exact ⟨hall [] first rest rfl, fun before arg after hsplit =>
        hall (first :: before) arg after (by rw [hsplit, List.cons_append])⟩

theorem checkSequenceUsed_eq_ok_iff {sequence : Option String} {args : List ForeignArg} :
    checkSequenceUsed sequence args = .ok () ↔
      ∀ name, sequence = some name → ∃ arg ∈ args, ∃ marked, arg.Refers name marked := by
  cases sequence with
  | none => simp [checkSequenceUsed]
  | some name =>
    have hused : args.any (·.refersTo name) = true ↔
        ∃ arg ∈ args, ∃ marked, arg.Refers name marked := by
      simp only [List.any_eq_true, refersTo_iff]
    simp only [checkSequenceUsed, Option.some.injEq, forall_eq', ← hused]
    cases args.any (·.refersTo name) <;> simp

/-! ## Valid directives -/

/-- Where only the last host argument can be a sequence, it is the one that is a sequence. -/
theorem variadicArg?_eq_some_iff {d : Directive} {host : HostArg}
    (hbare : ∀ h ∈ d.hostArgs.dropLast, h.variadic = false) :
    d.variadicArg? = some host ↔ host ∈ d.hostArgs ∧ host.variadic = true := by
  simp only [variadicArg?, Option.filter_eq_some_iff]
  constructor
  · rintro ⟨hlast, hvariadic⟩
    exact ⟨List.mem_of_getLast? hlast, hvariadic⟩
  · rintro ⟨hmem, hvariadic⟩
    have hne : d.hostArgs ≠ [] := List.ne_nil_of_mem hmem
    rw [← List.dropLast_append_getLast hne, List.mem_append, List.mem_singleton] at hmem
    obtain hmem | rfl := hmem
    · simp [hbare host hmem] at hvariadic
    · exact ⟨List.getLast?_eq_getLast_of_ne_nil hne, hvariadic⟩

/-- Whether the last host argument is a sequence. -/
def endsWithSequence (d : Directive) : Bool :=
  d.hostArgs.getLast?.any (·.variadic)

theorem endsWithSequence_iff {d : Directive} (hvalid : Valid d) :
    endsWithSequence d = true ↔ ∃ host ∈ d.hostArgs, host.variadic = true := by
  simp only [← variadicArg?_eq_some_iff hvalid.bare_before_last, variadicArg?,
    Option.filter_eq_some_iff, endsWithSequence, Option.any_eq_true]

/-- The name of the sequence is that of a host argument that is one. -/
theorem sequence_eq_some_iff {d : Directive} {name : String}
    (hbare : ∀ h ∈ d.hostArgs.dropLast, h.variadic = false) :
    d.variadicArg?.map (·.name) = some name ↔
      ∃ host ∈ d.hostArgs, host.variadic = true ∧ host.name = name := by
  simp only [Option.map_eq_some_iff, variadicArg?_eq_some_iff hbare, and_assoc]

/-- What the checks of the call say about a directive whose host arguments keep the rules. -/
theorem valid_of_checks {d : Directive} (hne : d.hostArgs ≠ [])
    (hreceiver : ∀ receiver, d.hostArgs.head? = some receiver → receiver.variadic = false)
    (hbare : ∀ h ∈ d.hostArgs.dropLast, h.variadic = false)
    (hnodup : (d.hostArgs.map (·.name)).Nodup)
    (hforeign : checkForeignArgs (d.hostArgs.map (·.name)) (d.variadicArg?.map (·.name))
      d.foreignArgs = .ok ())
    (hused : checkSequenceUsed (d.variadicArg?.map (·.name)) d.foreignArgs = .ok ()) : Valid d := by
  rw [checkForeignArgs_eq_ok_iff] at hforeign
  simp only [checkForeignArg_eq_ok_iff, sequence_eq_some_iff hbare] at hforeign
  simp only [checkSequenceUsed_eq_ok_iff, sequence_eq_some_iff hbare] at hused
  refine ⟨hne, hreceiver, hbare, hnodup, ?_, ?_⟩
  · intro arg harg base marked hrefers
    obtain ⟨before, after, hsplit⟩ := List.append_of_mem harg
    obtain ⟨hname, hmarked, -⟩ := hforeign before arg after hsplit base marked hrefers
    cases marked with
    | true =>
      obtain ⟨host, hhost, hvariadic, rfl⟩ := hmarked.1 rfl
      exact ⟨host, hhost, rfl, hvariadic⟩
    | false =>
      obtain ⟨host, hhost, rfl⟩ := List.mem_map.1 hname
      refine ⟨host, hhost, rfl, ?_⟩
      by_contra hvariadic
      simpa using hmarked.2 ⟨host, hhost, by simpa using hvariadic, rfl⟩
  · intro host hhost hvariadic
    have hsequence : ∃ h ∈ d.hostArgs, h.variadic = true ∧ h.name = host.name :=
      ⟨host, hhost, hvariadic, rfl⟩
    obtain ⟨last, hlast, marked, hrefers⟩ := hused host.name hsequence
    obtain ⟨before, after, hsplit⟩ := List.append_of_mem hlast
    obtain ⟨-, hmarked, hend⟩ := hforeign before last after hsplit host.name marked hrefers
    obtain rfl : after = [] := by simpa using hend (hmarked.2 hsequence)
    refine ⟨before, last, hsplit, hmarked.2 hsequence ▸ hrefers, ?_⟩
    -- A reference before the last argument would have to be the last one too.
    intro arg harg marked' hrefers'
    obtain ⟨front, back, rfl⟩ := List.append_of_mem harg
    obtain ⟨-, hmarked', hend'⟩ :=
      hforeign front arg (back ++ [last]) (by simp [hsplit]) host.name marked' hrefers'
    simpa using hend' (hmarked'.2 hsequence)

/-- A valid directive passes the checks of its call. -/
theorem Valid.checks {d : Directive} (h : Valid d) :
    checkForeignArgs (d.hostArgs.map (·.name)) (d.variadicArg?.map (·.name)) d.foreignArgs =
        .ok () ∧
      checkSequenceUsed (d.variadicArg?.map (·.name)) d.foreignArgs = .ok () := by
  rw [checkForeignArgs_eq_ok_iff]
  simp only [checkForeignArg_eq_ok_iff, checkSequenceUsed_eq_ok_iff,
    sequence_eq_some_iff h.bare_before_last]
  constructor
  · intro before arg after hsplit base marked hrefers
    obtain ⟨host, hhost, rfl, rfl⟩ := h.refers_host arg (by simp [hsplit]) base marked hrefers
    refine ⟨List.mem_map_of_mem hhost, ⟨fun hvariadic => ⟨host, hhost, hvariadic, rfl⟩, ?_⟩, ?_⟩
    · rintro ⟨other, hother, hvariadic, hname⟩
      rw [← List.inj_on_of_nodup_map h.names_nodup hother hhost hname]
      exact hvariadic
    · intro hvariadic
      obtain ⟨front, last, hlast, -, hfront⟩ := h.sequence_last host hhost hvariadic
      rcases List.eq_nil_or_concat after with rfl | ⟨middle, final, rfl⟩
      · rfl
      · have hsplit' : front ++ [last] = (before ++ arg :: middle) ++ [final] := by
          rw [← hlast, hsplit]
          simp
        have harg : arg ∈ front := by
          rw [(List.append_inj' hsplit' rfl).1]
          simp
        exact absurd hrefers (hfront arg harg _)
  · rintro name ⟨host, hhost, hvariadic, rfl⟩
    obtain ⟨before, last, hlast, hrefers, -⟩ := h.sequence_last host hhost hvariadic
    exact ⟨last, by simp [hlast], true, hrefers⟩

/-- The directives that are found to be valid are the valid ones. -/
theorem validate_eq_ok_iff {d : Directive} : validate d = .ok () ↔ Valid d := by
  unfold validate
  split
  case h_1 hnil =>
    constructor
    · rintro ⟨⟩
    · exact fun h => absurd hnil h.hosts_ne_nil
  case h_2 receiver rest hcons =>
    have hhead : d.hostArgs.head? = some receiver := by rw [hcons]; rfl
    by_cases hvariadic : receiver.variadic = true
    · rw [if_pos hvariadic]
      constructor
      · rintro ⟨⟩
      · intro h
        simp [h.receiver_bare receiver hhead] at hvariadic
    · rw [if_neg hvariadic]
      change (checkHostArgs [] d.hostArgs >>= fun _ => checkForeignArgs (d.hostArgs.map (·.name))
        (d.variadicArg?.map (·.name)) d.foreignArgs >>= fun _ => checkSequenceUsed
          (d.variadicArg?.map (·.name)) d.foreignArgs) = .ok () ↔ _
      simp only [check_eq_ok_iff, checkHostArgs_eq_ok_iff]
      constructor
      · rintro ⟨⟨hbare, hnodup, -⟩, hforeign, hused⟩
        refine valid_of_checks (by simp [hcons]) ?_ hbare hnodup hforeign hused
        intro r hr
        obtain rfl : receiver = r := by simpa [hhead] using hr
        simpa using hvariadic
      · intro h
        exact ⟨⟨h.bare_before_last, h.names_nodup, by simp⟩, h.checks⟩

end ForeignWrap.Directive
