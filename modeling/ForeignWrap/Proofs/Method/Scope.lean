import ForeignWrap.Proofs.Directive.Validity
import ForeignWrap.Proofs.Method.Routine
import Mathlib.Data.List.Induction

/-!
# What the names in a method body stand for

A body binds variables of its own around the names that a directive chooses. A name in it stands for
its innermost binding, so it may stand for something that it is not meant for.

## Main definitions

* `ForeignWrap.Method.Scope`, `ForeignWrap.Method.Scope.meaning`: what names stand for.
* `ForeignWrap.Method.Routine.Hygienic`: all names stand for what they are meant for.
* `ForeignWrap.Method.lookup_hostScope_eq_some_iff`: which names stand for arguments of the method.
-/

namespace ForeignWrap.Method

open Directive (HostArg ForeignArg)
open Call (identifier)

/-! ## Scopes -/

/-- A name without the mark of a raw one: `r#x` and `x` are the same variable. Names are taken to be
the same if they are the same characters, as the tokens are compared; the compiler, which reads the
code later, compares their normal forms (NFC), so that two spellings of one accented letter are one
letter to it. -/
@[irreducible]
def bareName (name : String) : String :=
  (Text.dropStart? "r#" name).getD name

/-- What a name is bound to by bindings that stand innermost first. -/
@[simp]
def lookup {α : Type} (name : String) : List (String × α) → Option α
  | [] => none
  | (bound, a) :: rest => if bareName bound = bareName name then some a else lookup name rest

/-- The variables that can be seen at some place, innermost first. -/
abbrev Scope := List (String × Meaning)

/-- What a name stands for. One that is not bound stands for something outside. -/
def Scope.meaning (scope : Scope) (name : String) : Meaning :=
  (lookup name scope).getD .outside

/-- A name stands for what it is meant for. All that is asked of something outside is that it is no
argument of the method, and nothing is asked of the variables of the body. -/
def Scope.Resolves (scope : Scope) (name : String) : Meaning → Prop
  | .host place => scope.meaning name = .host place
  | .own => True
  | .outside => ∀ place, scope.meaning name ≠ .host place

mutual

/-- All names in an expression stand for what they are meant for. -/
@[simp]
def Expr.Resolved (scope : Scope) : Expr → Prop
  | .self => True
  | .name text meaning => scope.Resolves text meaning
  | .code _ => True
  | .path _ => True
  | .number _ => True
  | .ask receiver _ args => receiver.Resolved scope ∧ AllResolved scope args
  | .call function args => function.Resolved scope ∧ AllResolved scope args
  | .cast value _ => value.Resolved scope
  | .castLength length => length.Resolved scope
  | .sum left right => left.Resolved scope ∧ right.Resolved scope
  | .reference value => value.Resolved scope
  | .nulls length => length.Resolved scope
  | .locked context raw bound value result =>
    context.Resolved scope ∧ value.Resolved ((raw, .own) :: scope) ∧
      result.Resolved ((bound, .own) :: (raw, .own) :: scope)

/-- All names in some expressions stand for what they are meant for. -/
@[simp]
def AllResolved (scope : Scope) : List Expr → Prop
  | [] => True
  | e :: rest => e.Resolved scope ∧ AllResolved scope rest

end

/-- All names in a statement stand for what they are meant for. -/
@[simp]
def Stmt.Resolved (scope : Scope) : Stmt → Prop
  | .bind _ value => value.Resolved scope
  | .bindArray _ _ value => value.Resolved scope
  | .assign array slot value =>
    array.Resolved scope ∧ slot.Resolved scope ∧ value.Resolved scope
  | .forEach index item sequence body =>
    sequence.Resolved scope ∧ body.Resolved ((item, .own) :: (index, .own) :: scope)
  | .run value => value.Resolved scope

/-- What can be seen after a statement. The name that the receiver is bound to stands for it. -/
def Stmt.scopeAfter (scope : Scope) : Stmt → Scope
  | .bind name .self => (name, .host 0) :: scope
  | .bind name _ => (name, .own) :: scope
  | .bindArray name _ _ => (name, .own) :: scope
  | .assign .. | .forEach .. | .run _ => scope

/-- All names in some statements and in the expression after them stand for what they are meant
for. -/
@[simp]
def ResolvedFrom (scope : Scope) (answer : Expr) : List Stmt → Prop
  | [] => answer.Resolved scope
  | s :: rest => s.Resolved scope ∧ ResolvedFrom (s.scopeAfter scope) answer rest

/-- The arguments of a method after the receiver, the last one innermost. -/
def paramScope (params : List String) : Scope :=
  ((params.zipIdx 1).map fun (name, place) => (name, .host place)).reverse

/-- All names in a body stand for what they are meant for. -/
def Routine.Hygienic (r : Routine) : Prop :=
  ResolvedFrom (paramScope r.params) r.answer r.statements

/-! ## Names in lists of expressions and statements -/

theorem allResolved_iff {scope : Scope} {es : List Expr} :
    AllResolved scope es ↔ ∀ e ∈ es, e.Resolved scope := by
  induction es with
  | nil => simp
  | cons e es ih => simp [ih]

/-- What is read from a value has no names of its own. -/
@[simp] theorem resolved_accessExpr_iff {scope : Scope} {value : Expr} {access : Call.Access} :
    (accessExpr value access).Resolved scope ↔ value.Resolved scope := by
  cases access <;> simp [accessExpr]

/-- Statements that bind nothing leave what can be seen as it is. -/
theorem resolvedFrom_append_iff {scope : Scope} {answer : Expr} {ss rest : List Stmt}
    (hss : ∀ s ∈ ss, s.scopeAfter scope = scope) :
    ResolvedFrom scope answer (ss ++ rest) ↔
      (∀ s ∈ ss, s.Resolved scope) ∧ ResolvedFrom scope answer rest := by
  induction ss with
  | nil => simp
  | cons s ss ih =>
    rw [List.cons_append, ResolvedFrom, hss s (by simp), ih fun s' hs' => hss s' (by simp [hs']),
      List.forall_mem_cons, and_assoc]

/-! ## Looking names up -/

theorem lookup_append {α : Type} (name : String) (inner outer : List (String × α)) :
    lookup name (inner ++ outer) = (lookup name inner).or (lookup name outer) := by
  induction inner with
  | nil => rfl
  | cons binding inner ih =>
    obtain ⟨bound, a⟩ := binding
    by_cases h : bareName bound = bareName name
    · simp [h]
    · simp [h, ih]

theorem lookup_eq_none_iff {α : Type} {name : String} {bindings : List (String × α)} :
    lookup name bindings = none ↔ ∀ b ∈ bindings, bareName b.1 ≠ bareName name := by
  induction bindings with
  | nil => simp
  | cons binding rest ih =>
    obtain ⟨bound, a⟩ := binding
    by_cases h : bareName bound = bareName name
    · simp [h]
    · simp [h, ih]

/-- The variables of a body hide what is outside of them. -/
theorem lookup_own_append {name : String} {locals : List String} {scope : Scope} :
    lookup name (locals.map (·, Meaning.own) ++ scope) =
      if bareName name ∈ locals.map bareName then some .own else lookup name scope := by
  induction locals with
  | nil => simp
  | cons l locals ih =>
    by_cases h : bareName l = bareName name
    · simp [h]
    · have h' : bareName name ≠ bareName l := fun heq => h heq.symm
      simp only [List.map_cons, List.cons_append, lookup, h, ih, List.mem_cons, h', false_or]
      rfl

/-- Bindings of other names hide nothing. -/
theorem lookup_append_of_forall_ne {α : Type} {name : String} {inner outer : List (String × α)}
    (h : ∀ b ∈ inner, bareName b.1 ≠ bareName name) :
    lookup name (inner ++ outer) = lookup name outer := by
  rw [lookup_append, lookup_eq_none_iff.2 h]
  rfl

/-- What a name is bound to is bound by one of the bindings. -/
theorem exists_mem_of_lookup_eq_some {α : Type} {name : String} {a : α}
    {bindings : List (String × α)} (h : lookup name bindings = some a) :
    ∃ b ∈ bindings, b.2 = a := by
  induction bindings with
  | nil => cases h
  | cons binding rest ih =>
    obtain ⟨bound, value⟩ := binding
    by_cases hname : bareName bound = bareName name
    · rw [lookup, if_pos hname] at h
      exact ⟨(bound, value), by simp, Option.some.inj h⟩
    · rw [lookup, if_neg hname] at h
      obtain ⟨b, hb, hvalue⟩ := ih h
      exact ⟨b, by simp [hb], hvalue⟩

/-- Of bindings that are made one after the other, the last one of a name is what it is bound to. -/
theorem lookup_reverse_eq_some_iff {α : Type} {name : String} {bindings : List (String × α)}
    {a : α} :
    lookup name bindings.reverse = some a ↔
      ∃ i bound, bindings[i]? = some (bound, a) ∧ bareName bound = bareName name ∧
        ∀ (j : Nat) (b : String × α), i < j → bindings[j]? = some b →
          bareName b.1 ≠ bareName name := by
  induction bindings using List.reverseRecOn with
  | nil => simp
  | append_singleton bindings last ih =>
    obtain ⟨lastBound, lastValue⟩ := last
    have hend : (bindings ++ [(lastBound, lastValue)])[bindings.length]? =
        some (lastBound, lastValue) := by simp
    rw [List.reverse_append, List.reverse_singleton, List.singleton_append, lookup]
    by_cases hname : bareName lastBound = bareName name
    · rw [if_pos hname, Option.some_inj]
      constructor
      · rintro rfl
        refine ⟨bindings.length, lastBound, hend, hname, ?_⟩
        intro j b hj hb
        have hlength : j < (bindings ++ [(lastBound, lastValue)]).length :=
          (List.getElem?_eq_some_iff.1 hb).1
        simp only [List.length_append, List.length_singleton] at hlength
        omega
      · rintro ⟨i, bound, hi, -, hlater⟩
        have hlength : i < (bindings ++ [(lastBound, lastValue)]).length :=
          (List.getElem?_eq_some_iff.1 hi).1
        simp only [List.length_append, List.length_singleton] at hlength
        obtain hlt | rfl : i < bindings.length ∨ i = bindings.length := by omega
        · have hdiffers := hlater bindings.length (lastBound, lastValue) hlt hend
          exact absurd hname hdiffers
        · rw [hend] at hi
          cases hi
          rfl
    · rw [if_neg hname, ih]
      constructor
      · rintro ⟨i, bound, hi, hbound, hlater⟩
        have hlt : i < bindings.length := (List.getElem?_eq_some_iff.1 hi).1
        refine ⟨i, bound, by rw [List.getElem?_append_left hlt, hi], hbound, ?_⟩
        intro j b hj hb
        by_cases hjlt : j < bindings.length
        · rw [List.getElem?_append_left hjlt] at hb
          exact hlater j b hj hb
        · rw [List.getElem?_append_right (by omega), List.getElem?_singleton] at hb
          split at hb
          · cases hb
            exact hname
          · cases hb
      · rintro ⟨i, bound, hi, hbound, hlater⟩
        have hlt : i < bindings.length := by
          by_contra hge
          rw [List.getElem?_append_right (by omega), List.getElem?_singleton] at hi
          split at hi
          · cases hi
            exact hname hbound
          · cases hi
        rw [List.getElem?_append_left hlt] at hi
        refine ⟨i, bound, hi, hbound, fun j b hj hb => hlater j b hj ?_⟩
        rw [List.getElem?_append_left (List.getElem?_eq_some_iff.1 hb).1, hb]

/-! ## The arguments of a method -/

/-- The arguments of a method, all of them: the receiver is named after the others. -/
def hostScope : (names : List String) → Scope
  | [] => []
  | receiver :: params => (receiver, .host 0) :: paramScope params

/-- No argument of the method that is named after the one at `place` has its name. -/
def Latest (names : List String) (place : Nat) : Prop :=
  place = 0 ∨ ∀ other name other', other = 0 ∨ place < other → names[place]? = some name →
    names[other]? = some other' → bareName other' ≠ bareName name

/-- Where no two arguments have the same name, none is hidden by another. -/
theorem latest_of_nodup {names : List String} (h : (names.map bareName).Nodup) (place : Nat) :
    Latest names place := by
  by_cases hfirst : place = 0
  · exact .inl hfirst
  · refine .inr fun other name other' hother hname hother' heq => ?_
    have hget : (names.map bareName)[place]? = some (bareName name) := by simp [hname]
    have hget' : (names.map bareName)[other]? = some (bareName name) := by simp [hother', heq]
    have hsame : other = place :=
      (List.getElem?_inj (List.getElem?_eq_some_iff.1 hget').1 h).1 (hget'.trans hget.symm)
    omega

theorem lookup_paramScope_eq_some_iff {params : List String} {name : String} {place : Nat} :
    lookup name (paramScope params) = some (.host place) ↔
      ∃ i bound, place = i + 1 ∧ params[i]? = some bound ∧ bareName bound = bareName name ∧
        ∀ j later, i < j → params[j]? = some later → bareName later ≠ bareName name := by
  have hget : ∀ (i : Nat) (b : String × Meaning),
      ((params.zipIdx 1).map fun (name, place) => (name, Meaning.host place))[i]? = some b ↔
        ∃ bound, params[i]? = some bound ∧ b = (bound, .host (i + 1)) := by
    intro i b
    rw [List.getElem?_map, List.getElem?_zipIdx, Option.map_map, Option.map_eq_some_iff]
    simp only [Function.comp_apply, Nat.add_comm 1 i, eq_comm]
  rw [paramScope, lookup_reverse_eq_some_iff]
  constructor
  · rintro ⟨i, bound, hi, hbound, hlater⟩
    obtain ⟨_, hparam, heq⟩ := (hget _ _).1 hi
    cases heq
    exact ⟨i, bound, rfl, hparam, hbound, fun j later hj hlaterj =>
      hlater j _ hj ((hget _ _).2 ⟨later, hlaterj, rfl⟩)⟩
  · rintro ⟨i, bound, rfl, hi, hbound, hlater⟩
    refine ⟨i, bound, (hget _ _).2 ⟨bound, hi, rfl⟩, hbound, ?_⟩
    intro j b hj hb
    obtain ⟨later, hlaterj, rfl⟩ := (hget _ _).1 hb
    exact hlater j later hj hlaterj

/-- An argument of the method is what its name is bound to if no later one has this name. -/
theorem lookup_hostScope_eq_some_iff {names : List String} {name : String} {place : Nat}
    (hname : names[place]? = some name) :
    lookup name (hostScope names) = some (.host place) ↔ Latest names place := by
  cases names with
  | nil => simp at hname
  | cons receiver params =>
    cases place with
    | zero =>
      obtain rfl : receiver = name := by simpa using hname
      simp [hostScope, Latest]
    | succ i =>
      have hparam : params[i]? = some name := by simpa using hname
      by_cases hreceiver : bareName receiver = bareName name
      · simp only [hostScope, lookup, if_pos hreceiver]
        constructor
        · intro h
          cases h
        · rintro (h | h)
          · cases h
          · have hdiffers := h 0 name receiver (.inl rfl) hname rfl
            exact absurd hreceiver hdiffers
      · simp only [hostScope, lookup, if_neg hreceiver, lookup_paramScope_eq_some_iff]
        constructor
        · rintro ⟨i', bound, hi, -, -, hlater⟩
          obtain rfl : i = i' := by omega
          refine .inr fun other name' other' hother hname' hother' => ?_
          obtain rfl : name = name' := by simpa [hparam] using hname'
          obtain rfl | hlt := hother
          · obtain rfl : receiver = other' := by simpa using hother'
            exact hreceiver
          · obtain ⟨j, rfl⟩ : ∃ j, other = j + 1 := ⟨other - 1, by omega⟩
            exact hlater j other' (by omega) (by simpa using hother')
        · rintro (h | h)
          · cases h
          · exact ⟨i, name, rfl, hparam, rfl, fun j later hj hlaterj =>
              h (j + 1) name later (.inr (by omega)) hname (by simpa using hlaterj)⟩

/-- All arguments of a method are bound, each to its place. -/
theorem mem_hostScope_iff {names : List String} {host : String} {meaning : Meaning} :
    (host, meaning) ∈ hostScope names ↔
      ∃ place, names[place]? = some host ∧ meaning = .host place := by
  cases names with
  | nil => simp [hostScope]
  | cons receiver params =>
    simp only [hostScope, paramScope, List.mem_cons, List.mem_reverse, List.mem_map, Prod.mk.injEq,
      Prod.exists, List.mk_mem_zipIdx_iff_le_and_getElem?_sub]
    constructor
    · rintro (⟨rfl, rfl⟩ | ⟨name, place, ⟨hplace, hparam⟩, rfl, rfl⟩)
      · exact ⟨0, rfl, rfl⟩
      · obtain ⟨i, rfl⟩ : ∃ i, place = i + 1 := ⟨place - 1, by omega⟩
        exact ⟨i + 1, by simpa using hparam, rfl⟩
    · rintro ⟨place, hname, rfl⟩
      cases place with
      | zero =>
        obtain rfl : receiver = host := by simpa using hname
        exact .inl ⟨rfl, rfl⟩
      | succ i => exact .inr ⟨host, i + 1, ⟨by omega, by simpa using hname⟩, rfl, rfl⟩

/-- A name stands for no argument of the method exactly when no argument has it. -/
theorem forall_lookup_hostScope_ne_iff {names : List String} {name : String} :
    (∀ place, (lookup name (hostScope names)).getD .outside ≠ .host place) ↔
      ∀ host ∈ names, bareName host ≠ bareName name := by
  constructor
  · intro h host hhost heq
    obtain ⟨place, hplace⟩ := List.getElem?_of_mem hhost
    have hmem : (host, Meaning.host place) ∈ hostScope names :=
      mem_hostScope_iff.2 ⟨place, hplace, rfl⟩
    cases hlookup : lookup name (hostScope names) with
    | none => exact lookup_eq_none_iff.1 hlookup _ hmem heq
    | some meaning =>
      obtain ⟨⟨bound, _⟩, hbound, rfl⟩ := exists_mem_of_lookup_eq_some hlookup
      obtain ⟨place', -, rfl⟩ := mem_hostScope_iff.1 hbound
      exact h place' (by rw [hlookup]; rfl)
  · intro h place
    have hnone : lookup name (hostScope names) = none := by
      rw [lookup_eq_none_iff]
      rintro ⟨bound, meaning⟩ hbound
      obtain ⟨place', hplace', -⟩ := mem_hostScope_iff.1 hbound
      exact h bound (List.mem_of_getElem? hplace')
    rw [hnone]
    simp

end ForeignWrap.Method
