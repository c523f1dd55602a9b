import ForeignWrap.Proofs.Results
import ForeignWrap.Syntax.Parser

/-!
# What readers read

A reader that reads a tree off the tokens ahead does so whatever was taken before. What a reader of
larger syntax reads is put together from what the readers inside it read, in the order in which they
are called.

## Main definitions

* `ForeignWrap.Syntax.Parser.Reads`: what a reader reads, and the tokens that it leaves.
* `ForeignWrap.Syntax.Parser.CollectsIn`: what is read one thing after another, in so many steps.
* `ForeignWrap.Syntax.Parser.reads_commaList`: things with commas between them.
-/

namespace ForeignWrap

/-! ## How large code is -/

namespace Code

attribute [simp] sizeOf Token.size

@[simp] theorem sizeOf_append (tokens rest : List Token) :
    sizeOf (tokens ++ rest) = sizeOf tokens + sizeOf rest := by
  induction tokens with
  | nil => simp
  | cons t tokens ih =>
    rw [List.cons_append, sizeOf, sizeOf, ih, Nat.add_assoc]

@[simp] theorem sizeOf_word (text : String) : sizeOf (word text) = 1 :=
  rfl

@[simp] theorem sizeOf_parens (content : List Token) :
    sizeOf (parens content) = sizeOf content + 1 :=
  rfl

@[simp] theorem sizeOf_brackets (content : List Token) :
    sizeOf (brackets content) = sizeOf content + 1 :=
  rfl

@[simp] theorem sizeOf_braces (content : List Token) :
    sizeOf (braces content) = sizeOf content + 1 :=
  rfl

theorem sizeOf_separated {separator : List Token} {pieces : List (List Token)} {piece : List Token}
    (h : piece ∈ pieces) : sizeOf piece ≤ sizeOf (separated separator pieces) := by
  fun_induction separated separator pieces with
  | case1 => cases h
  | case2 first =>
    obtain rfl := List.mem_singleton.1 h
    exact Nat.le_refl _
  | case3 first next rest ih =>
    simp only [sizeOf_append]
    obtain rfl | h := List.mem_cons.1 h
    · omega
    · have := ih h
      omega

theorem length_le_length_separated (first : List Token) (pieces : List (List Token)) :
    pieces.length ≤ (separated (op ",") (first :: pieces)).length := by
  induction pieces generalizing first with
  | nil => simp
  | cons next pieces ih =>
    have hnext := ih next
    have hcomma : (op ",").length = 1 := rfl
    rw [separated, List.length_append, List.length_append, hcomma, List.length_cons]
    omega

end Code

namespace Syntax

open Code (Delimiter Token)

namespace Parser

variable {α β : Type}

/-- From the tokens `tokens` the reader `p` reads `a`, and it leaves `rest`. -/
def Reads (p : Parser α) (tokens : List Token) (a : α) (rest : List Token) : Prop :=
  ∃ written : List Token, ∀ taken leftover,
    p ⟨tokens, taken, leftover⟩ = .ok (a, ⟨rest, written.reverse ++ taken, leftover⟩)

/-- On the tokens `tokens` the reader `p` fails. -/
def Fails (p : Parser α) (tokens : List Token) : Prop :=
  ∀ taken leftover, ∃ e, p ⟨tokens, taken, leftover⟩ = .error e

variable {p : Parser α} {f : α → Parser β} {a : α} {b : β} {tokens middle rest : List Token}

/-! ## Steps -/

/-- A reader after another reads exactly if both do. -/
theorem bind_input_eq_ok_iff {input final : Input} :
    (p >>= f) input = .ok (b, final) ↔
      ∃ a between, p input = .ok (a, between) ∧ f a between = .ok (b, final) :=
  Iff.trans bind_eq_ok_iff Prod.exists

/-- A reader goes on where the one before it has ended. -/
theorem bind_eq_of_eq_ok {input between : Input} (h : p input = .ok (a, between)) :
    (p >>= f) input = f a between := by
  have hrun : (p >>= f) input = p input >>= fun read => f read.1 read.2 := rfl
  rw [hrun, h]
  rfl

theorem reads_pure (a : α) (tokens : List Token) : Reads (pure a) tokens a tokens :=
  ⟨[], fun _ _ => rfl⟩

theorem Reads.bind (hp : Reads p tokens a middle) (hf : Reads (f a) middle b rest) :
    Reads (p >>= f) tokens b rest := by
  obtain ⟨first, hp⟩ := hp
  obtain ⟨second, hf⟩ := hf
  refine ⟨first ++ second, fun taken leftover => bind_eq_ok_iff.2 ⟨_, hp taken leftover, ?_⟩⟩
  rw [List.reverse_append, List.append_assoc]
  exact hf _ leftover

/-- A reader that goes on as `q` after its first tokens reads what `q` reads. -/
theorem Reads.of_opens {q : Parser α} (written : List Token)
    (hopens : ∀ taken leftover,
      p ⟨tokens, taken, leftover⟩ = q ⟨middle, written.reverse ++ taken, leftover⟩)
    (hq : Reads q middle a rest) : Reads p tokens a rest := by
  obtain ⟨more, hq⟩ := hq
  refine ⟨written ++ more, fun taken leftover => ?_⟩
  rw [hopens, hq, List.reverse_append, List.append_assoc]

/-- A reader may look at the tokens ahead. -/
theorem reads_ahead_bind {f : List Token → Parser β} (h : Reads (f tokens) tokens b rest) :
    Reads (ahead >>= f) tokens b rest :=
  h

theorem Reads.map (hp : Reads p tokens a rest) (f : α → β) : Reads (f <$> p) tokens (f a) rest := by
  obtain ⟨written, hp⟩ := hp
  refine ⟨written, fun taken leftover => ?_⟩
  rw [← bind_pure_comp]
  exact bind_eq_ok_iff.2 ⟨_, hp taken leftover, rfl⟩

/-- What is read is what the reader answers, whatever was taken before. -/
theorem Reads.eq_of_eq_ok (h : Reads p tokens a rest) {taken : List Token}
    {leftover : Option Delimiter} {a' : α} {input : Input}
    (hp : p ⟨tokens, taken, leftover⟩ = .ok (a', input)) :
    a' = a ∧ input.rest = rest ∧ input.leftover = leftover := by
  obtain ⟨written, h⟩ := h
  rw [h] at hp
  cases hp
  exact ⟨rfl, rfl, rfl⟩

/-- Nothing else is read from the same tokens. -/
theorem Reads.eq_of_reads {a' : α} {rest' : List Token} (h : Reads p tokens a rest)
    (h' : Reads p tokens a' rest') : a' = a := by
  obtain ⟨_, h'⟩ := h'
  exact (h.eq_of_eq_ok (h' [] none)).1

theorem reads_advance (taken rest : List Token) : Reads (advance taken rest) tokens () rest :=
  ⟨taken, fun _ _ => rfl⟩

theorem reads_write (written : List Token) : Reads (write written) tokens () tokens :=
  ⟨written, fun _ _ => rfl⟩

theorem reads_atEnd (tokens : List Token) : Reads atEnd tokens tokens.isEmpty tokens :=
  ⟨[], fun _ _ => rfl⟩

/-! ## Failures -/

theorem Fails.bind (hp : Fails p tokens) (f : α → Parser β) : Fails (p >>= f) tokens := by
  intro taken leftover
  obtain ⟨e, hp⟩ := hp taken leftover
  exact ⟨e, bind_eq_error_iff.2 (.inl hp)⟩

theorem Reads.fails_bind (hp : Reads p tokens a middle) (hf : Fails (f a) middle) :
    Fails (p >>= f) tokens := by
  obtain ⟨written, hp⟩ := hp
  intro taken leftover
  obtain ⟨e, hf⟩ := hf (written.reverse ++ taken) leftover
  exact ⟨e, bind_eq_error_iff.2 (.inr ⟨_, hp taken leftover, hf⟩)⟩

theorem fails_expected (wanted : List String) (tokens : List Token) :
    Fails (expected wanted : Parser α) tokens :=
  fun _ _ => ⟨_, rfl⟩

/-! ## Operators -/

theorem afterOp?_opSigns (c : Char) (cs : List Char) (rest : List Token) :
    afterOp? (c :: cs) (Code.opSigns (c :: cs) ++ rest) = some rest := by
  induction cs generalizing c with
  | nil => simp [Code.opSigns, afterOp?]
  | cons d cs ih => simpa [Code.opSigns, afterOp?] using ih d

theorem afterOp?_op {signs : String} (hsigns : signs ≠ "") (rest : List Token) :
    afterOp? signs.toList (Code.op signs ++ rest) = some rest := by
  obtain ⟨c, cs, hcs⟩ := List.exists_cons_of_ne_nil fun h => hsigns (String.toList_inj.1 h)
  rw [Code.op, hcs]
  exact afterOp?_opSigns c cs rest

theorem reads_op_of_afterOp? {signs : String} (h : afterOp? signs.toList tokens = some rest) :
    Reads (op signs) tokens () rest :=
  reads_ahead_bind (by rw [h]; exact reads_advance _ _)

theorem reads_op {signs : String} (hsigns : signs ≠ "") (rest : List Token) :
    Reads (op signs) (Code.op signs ++ rest) () rest :=
  reads_op_of_afterOp? (afterOp?_op hsigns rest)

theorem reads_op?_true {signs : String} (h : afterOp? signs.toList tokens = some rest) :
    Reads (op? signs) tokens true rest :=
  reads_ahead_bind (by rw [h]; exact (reads_advance _ _).bind (reads_pure _ _))

theorem op?_eq_ok_of_atOp {signs : String} {taken : List Token} {leftover : Option Delimiter}
    (h : atOp signs tokens = false) :
    op? signs ⟨tokens, taken, leftover⟩ = .ok (false, ⟨tokens, taken, leftover⟩) := by
  have hnone : afterOp? signs.toList tokens = none := by simpa [atOp] using h
  refine (bind_eq_of_eq_ok rfl).trans ?_
  rw [hnone]
  rfl

theorem reads_op?_false {signs : String} (h : atOp signs tokens = false) :
    Reads (op? signs) tokens false tokens :=
  ⟨[], fun _ _ => op?_eq_ok_of_atOp h⟩

/-! ## Words and literals -/

theorem reads_keyword (text : String) (rest : List Token) :
    Reads (keyword text) (.word text :: rest) () rest :=
  reads_ahead_bind (by
    simp only [if_true]
    exact reads_advance _ _)

theorem reads_keyword?_true (text : String) (rest : List Token) :
    Reads (keyword? text) (.word text :: rest) true rest :=
  reads_ahead_bind (by
    simp only [if_true]
    exact (reads_advance _ _).bind (reads_pure _ _))

theorem reads_keyword?_false {text : String} (h : atWord text tokens = false) :
    Reads (keyword? text) tokens false tokens := by
  unfold keyword?
  refine reads_ahead_bind ?_
  split
  case h_1 word rest =>
    rw [if_neg (by simpa [atWord] using h)]
    exact reads_pure _ _
  case h_2 => exact reads_pure _ _

theorem reads_name {text : String} (htext : isName text = true) (rest : List Token) :
    Reads name (.word text :: rest) text rest :=
  reads_ahead_bind (by
    simp only [htext, if_true]
    exact (reads_advance _ _).bind (reads_pure _ _))

theorem fails_name (h : atName tokens = false) : Fails name tokens := by
  unfold name
  refine (show Reads ahead tokens tokens tokens from ⟨[], fun _ _ => rfl⟩).fails_bind ?_
  split
  case h_1 text rest =>
    rw [if_neg (by simpa [atName] using h)]
    exact fun _ _ => ⟨_, rfl⟩
  case h_2 => exact fails_expected _ _

theorem reads_anyWord (text : String) (rest : List Token) :
    Reads anyWord (.word text :: rest) text rest :=
  reads_ahead_bind ((reads_advance _ _).bind (reads_pure _ _))

theorem reads_lifetime?_none (h : atLifetime tokens = false) :
    Reads lifetime? tokens none tokens :=
  reads_ahead_bind (by
    simp only [h]
    exact reads_pure _ _)

theorem reads_literal (text : String) (rest : List Token) :
    Reads literal (.literal text :: rest) text rest :=
  reads_ahead_bind ((reads_advance _ _).bind (reads_pure _ _))

/-! ## Groups -/

/-- A reader of a group reads its content on its own, and goes on after the group. -/
theorem inside_group (delimiter : Delimiter) (p : Parser α) (content rest taken : List Token)
    (leftover : Option Delimiter) :
    inside delimiter p ⟨.group delimiter content :: rest, taken, leftover⟩ =
      p ⟨content, [], leftover⟩ >>= fun (a, inner) =>
        .ok (a, ⟨rest, .group delimiter inner.taken.reverse :: taken,
          inner.leftover.or (if inner.rest.isEmpty then none else some delimiter)⟩) := by
  have hrun : inside delimiter p ⟨.group delimiter content :: rest, taken, leftover⟩ =
      (if delimiter = delimiter then do
        let (a, inner) ← p { rest := content, leftover := (← get).leftover }
        let leftover := inner.leftover.or (if inner.rest.isEmpty then none else some delimiter)
        modify ({ · with leftover })
        advance [.group delimiter inner.taken.reverse] rest
        return a
      else expected [groupName delimiter] : Parser α)
        ⟨.group delimiter content :: rest, taken, leftover⟩ := rfl
  rw [hrun, if_pos rfl]
  change ((p ⟨content, [], leftover⟩ >>= fun result => .ok (result, _)) >>= _) = _
  cases p ⟨content, [], leftover⟩ <;> rfl

theorem reads_inside {delimiter : Delimiter} {content : List Token} (h : Reads p content a []) :
    Reads (inside delimiter p) (.group delimiter content :: rest) a rest := by
  obtain ⟨written, h⟩ := h
  refine ⟨[.group delimiter written], fun taken leftover => ?_⟩
  rw [inside_group, h]
  simp [bind, Except.bind]

theorem reads_anyGroup (delimiter : Delimiter) (content rest : List Token) :
    Reads anyGroup (.group delimiter content :: rest) (delimiter, content) rest :=
  reads_ahead_bind ((reads_advance _ _).bind (reads_pure _ _))

/-! ## What is written -/

theorem capture_apply (p : Parser α) (input : Input) :
    capture p input = p { input with taken := [] } >>= fun (a, last) =>
      .ok ((a, last.taken.reverse), { last with taken := input.taken }) :=
  rfl

theorem asWritten_apply (p : Parser α) (input : Input) :
    asWritten p input = p input >>= fun (a, last) =>
      (do return (a, ← keepFrom input) : Parser (α × List Token)) last :=
  rfl

theorem orRaw_apply (raw : List Token → α) (p : Parser (Option α)) (input : Input) :
    orRaw raw p input = p input >>= fun (result, last) =>
      (match result with
        | some a => pure a
        | none => do return raw (← keepFrom input) : Parser α) last :=
  rfl

theorem reads_capture (h : Reads p tokens a rest) :
    ∃ written, Reads (capture p) tokens (a, written) rest := by
  obtain ⟨written, h⟩ := h
  refine ⟨written, [], fun taken leftover => ?_⟩
  rw [capture_apply, h]
  simp [bind, Except.bind]

theorem reads_unlessEmpty {p : Parser (List α)} {items : List α} (h : Reads p tokens items rest) :
    Reads (unlessEmpty p) tokens items rest := by
  obtain ⟨written, hcapture⟩ := reads_capture h
  refine hcapture.bind ?_
  cases items with
  | nil => exact reads_pure _ _
  | cons first more => exact (reads_write _).bind (reads_pure _ _)

/-- Syntax that has a tree is not kept as its tokens. -/
theorem reads_orRaw {raw : List Token → α} {p : Parser (Option α)}
    (h : Reads p tokens (some a) rest) : Reads (orRaw raw p) tokens a rest := by
  obtain ⟨written, h⟩ := h
  refine ⟨written, fun taken leftover => ?_⟩
  rw [orRaw_apply, h]
  rfl

/-- What is only attempted is told as it comes out, and takes nothing. -/
theorem attempt_eq (p : Parser α) (input : Input) :
    attempt p input =
      match p input with
      | .ok result => .ok (some result, input)
      | .error _ => .ok (none, input) := by
  change (match p input with
    | .ok result => (pure (some result) : Parser (Option (α × Input)))
    | .error _ => pure none) input = _
  cases p input <;> rfl

theorem reads_attempt_none (h : Fails p tokens) : Reads (attempt p) tokens none tokens := by
  refine ⟨[], fun taken leftover => ?_⟩
  obtain ⟨e, h⟩ := h taken leftover
  rw [attempt_eq, h]
  rfl

/-! ## One thing after another -/

/-- From the tokens `tokens` on, `step` finds the things `items` in as many steps and then no
more. -/
inductive CollectsIn (step : Parser (Option α)) :
    (tokens : List Token) → (items : List α) → (rest : List Token) → Prop where
  | done {tokens : List Token} : Reads step tokens none tokens → CollectsIn step tokens [] tokens
  | more {tokens middle rest : List Token} {a : α} {items : List α} :
      Reads step tokens (some a) middle → middle.length < tokens.length →
      CollectsIn step middle items rest → CollectsIn step tokens (a :: items) rest

theorem CollectsIn.reads_collectUpTo {step : Parser (Option α)} {items : List α}
    (h : CollectsIn step tokens items rest) {bound : Nat} (hbound : tokens.length < bound) :
    Reads (collectUpTo step bound) tokens items rest := by
  induction h generalizing bound with
  | done hstep =>
    obtain ⟨bound, rfl⟩ := Nat.exists_eq_add_of_lt hbound
    exact hstep.bind (reads_pure _ _)
  | more hstep hlength _ ih =>
    obtain _ | bound := bound
    · omega
    · exact hstep.bind ((ih (by omega)).bind (reads_pure _ _))

theorem CollectsIn.reads {step : Parser (Option α)} {items : List α}
    (h : CollectsIn step tokens items rest) : Reads (collect step) tokens items rest :=
  reads_ahead_bind (h.reads_collectUpTo (Nat.lt_succ_self _))

/-! ## Lists -/

/-- Whether what was read before can end here: at the end, or before a comma. -/
def AtListEnd (tokens : List Token) : Prop :=
  tokens = [] ∨ ∃ joint more, tokens = .sign ',' joint :: more

/-- Pieces of code that `item` reads one by one, in front of a comma and at the end. -/
def ReadsEach (item : Parser α) : List (List Token) → List α → Prop :=
  List.Forall₂ fun piece a =>
    piece ≠ [] ∧ ∀ rest, AtListEnd rest → Reads item (piece ++ rest) a rest

/-- One of the things of a list, with the comma after it if the list goes on. -/
def commaStep (item : Parser α) : Parser (Option α) := do
  if ← atEnd then return none
  let a ← item
  if !(← atEnd) then op ","
  return some a

theorem commaList_eq_collect (item : Parser α) : commaList item = collect (commaStep item) :=
  rfl

theorem reads_commaStep_last {item : Parser α} (hne : tokens ≠ []) (h : Reads item tokens a []) :
    Reads (commaStep item) tokens (some a) [] := by
  refine (reads_atEnd tokens).bind ?_
  rw [if_neg (by simpa using hne)]
  exact h.bind ((reads_atEnd []).bind (reads_pure _ _))

theorem reads_commaStep {item : Parser α} (hne : tokens ≠ [])
    (h : Reads item tokens a (Code.op "," ++ rest)) :
    Reads (commaStep item) tokens (some a) rest := by
  refine (reads_atEnd tokens).bind ?_
  rw [if_neg (by simpa using hne)]
  refine h.bind ((reads_atEnd _).bind ?_)
  exact (reads_op (by decide) rest).bind (reads_pure _ _)

theorem collectsIn_commaStep {item : Parser α} {pieces : List (List Token)} {items : List α}
    (h : ReadsEach item pieces items) :
    CollectsIn (commaStep item) (Code.separated (Code.op ",") pieces) items [] := by
  induction h with
  | nil => exact .done ((reads_atEnd []).bind (reads_pure _ _))
  | @cons piece a pieces items hpiece hpieces ih =>
    obtain ⟨hne, hreads⟩ := hpiece
    cases hpieces with
    | nil =>
      have hlast := hreads [] (.inl rfl)
      rw [List.append_nil] at hlast
      refine .more (reads_commaStep_last hne hlast) (List.length_pos_of_ne_nil hne) ?_
      exact .done ((reads_atEnd []).bind (reads_pure _ _))
    | @cons next b pieces items hnext hrest =>
      have hsplit : Code.separated (Code.op ",") (piece :: next :: pieces) =
          piece ++ (Code.op "," ++ Code.separated (Code.op ",") (next :: pieces)) := by
        rw [Code.separated, List.append_assoc]
      rw [hsplit]
      refine .more (reads_commaStep ?_ (hreads _ (.inr ⟨_, _, rfl⟩))) ?_ ih
      · simp [hne]
      · simp [Code.op, Code.opSigns]
        omega

/-- A list is read from its pieces with commas between them. -/
theorem reads_commaList {item : Parser α} {pieces : List (List Token)} {items : List α}
    (h : ReadsEach item pieces items) :
    Reads (commaList item) (Code.separated (Code.op ",") pieces) items [] := by
  rw [commaList_eq_collect]
  exact (collectsIn_commaStep h).reads

/-! ## Up to the end -/

/-- One of the things that are read up to the end. -/
def endStep (item : Parser α) : Parser (Option α) := do
  if ← atEnd then return none
  return some (← item)

theorem reads_endStep_none (item : Parser α) : Reads (endStep item) [] none [] :=
  (reads_atEnd []).bind (reads_pure _ _)

theorem reads_endStep {item : Parser α} (hne : tokens ≠ []) (h : Reads item tokens a rest) :
    Reads (endStep item) tokens (some a) rest := by
  refine (reads_atEnd tokens).bind ?_
  rw [if_neg (by simpa using hne)]
  exact h.bind (reads_pure _ _)

/-- Things are read one after another up to the end. -/
theorem reads_untilEnd {item : Parser α} {items : List α}
    (h : CollectsIn (endStep item) tokens items []) : Reads (untilEnd item) tokens items [] :=
  h.reads

end Parser

end Syntax

end ForeignWrap
