import Mathlib.Data.List.Forall2

/-!
# Results that may be errors

What a chain of steps needs in order to give a result: every step gives one. A list of steps gives a
list of results, one for each. A chain fails as the first step that fails.

## Main definitions

* `ForeignWrap.mapM_eq_ok_iff`: the results of a list of steps, related one to one.
* `ForeignWrap.bind_eq_error_iff`, `ForeignWrap.mapM_eq_error_iff`: the first step that fails.
-/

namespace ForeignWrap

variable {ε α β : Type}

/-- Two steps give a result exactly when the first gives one from which the second does. -/
theorem bind_eq_ok_iff {step : Except ε α} {next : α → Except ε β} {b : β} :
    (step >>= next) = .ok b ↔ ∃ a, step = .ok a ∧ next a = .ok b := by
  cases step <;> simp [bind, Except.bind]

/-- A check lets what follows it go on exactly when it passes. -/
theorem check_eq_ok_iff {check : Except ε Unit} {next : Except ε β} {b : β} :
    (check >>= fun _ => next) = .ok b ↔ check = .ok () ∧ next = .ok b := by
  cases check <;> simp [bind, Except.bind]

@[simp] theorem map_eq_ok_iff {step : Except ε α} {f : α → β} {b : β} :
    step.map f = .ok b ↔ ∃ a, step = .ok a ∧ f a = b := by
  cases step <;> simp [Except.map]

/-- Telling an error in other words does not change what succeeds. -/
@[simp] theorem mapError_eq_ok_iff {ε' : Type} {step : Except ε α} {f : ε → ε'} {a : α} :
    step.mapError f = .ok a ↔ step = .ok a := by
  cases step <;> simp [Except.mapError]

/-- A step that is seen to give a result gives some result. -/
theorem exists_eq_ok_of_toBool {step : Except ε α} (h : step.toBool = true) :
    ∃ a, step = .ok a := by
  cases step with
  | ok a => exact ⟨a, rfl⟩
  | error e => cases h

/-- So does one of whose result something is seen. -/
theorem toOption_map_eq_some_iff {step : Except ε α} {f : α → β} {b : β} :
    step.toOption.map f = some b ↔ ∃ a, step = .ok a ∧ f a = b := by
  cases step <;> simp [Except.toOption]

/-- A list of steps gives the list of their results. -/
theorem mapM_eq_ok_iff {f : α → Except ε β} {xs : List α} {ys : List β} :
    xs.mapM f = .ok ys ↔ List.Forall₂ (fun x y => f x = .ok y) xs ys := by
  induction xs generalizing ys with
  | nil =>
    constructor
    · rintro h
      cases h
      exact .nil
    · rintro ⟨⟩
      rfl
  | cons x xs ih =>
    simp only [List.mapM_cons, bind_eq_ok_iff, ih]
    constructor
    · rintro ⟨y, hy, ys, hys, h⟩
      cases h
      exact .cons hy hys
    · rintro (_ | ⟨hy, hys⟩)
      exact ⟨_, hy, _, hys, rfl⟩

/-! ## Errors -/

/-- Two steps fail as the first one does, or as the second one does after it. -/
theorem bind_eq_error_iff {step : Except ε α} {next : α → Except ε β} {e : ε} :
    (step >>= next) = .error e ↔ step = .error e ∨ ∃ a, step = .ok a ∧ next a = .error e := by
  cases step <;> simp [bind, Except.bind]

theorem map_eq_error_iff {step : Except ε α} {f : α → β} {e : ε} :
    step.map f = .error e ↔ step = .error e := by
  cases step <;> simp [Except.map]

/-- A list of steps fails as the first of them that fails. Those after it are not tried. -/
theorem mapM_eq_error_iff {f : α → Except ε β} {xs : List α} {e : ε} :
    xs.mapM f = .error e ↔
      ∃ before x after, xs = before ++ x :: after ∧ (∀ y ∈ before, ∃ b, f y = .ok b) ∧
        f x = .error e := by
  induction xs with
  | nil =>
    constructor
    · intro h
      cases h
    · rintro ⟨before, x, after, hsplit, -, -⟩
      simp at hsplit
  | cons first rest ih =>
    rw [List.mapM_cons, bind_eq_error_iff]
    constructor
    · rintro (hfirst | ⟨b, hfirst, hrest⟩)
      · exact ⟨[], first, rest, rfl, by simp, hfirst⟩
      · obtain hrest | ⟨bs, -, hpure⟩ := bind_eq_error_iff.1 hrest
        · obtain ⟨before, x, after, rfl, hbefore, hx⟩ := ih.1 hrest
          exact ⟨first :: before, x, after, rfl, List.forall_mem_cons.2 ⟨⟨b, hfirst⟩, hbefore⟩, hx⟩
        · cases hpure
    · rintro ⟨before, x, after, hsplit, hbefore, hx⟩
      cases before with
      | nil =>
        obtain ⟨rfl, rfl⟩ := List.cons.inj hsplit
        exact .inl hx
      | cons y before =>
        obtain ⟨rfl, rfl⟩ := List.cons.inj hsplit
        obtain ⟨⟨b, hb⟩, hbefore⟩ := List.forall_mem_cons.1 hbefore
        exact .inr ⟨b, hb, bind_eq_error_iff.2 (.inl (ih.2 ⟨before, x, after, rfl, hbefore, hx⟩))⟩

/-! ## Lists of results -/

/-- Steps that all give a result give the list of their results, and these keep what is known of
what the steps are for. -/
theorem exists_mapM_eq_ok {γ : Type} {f : β → Except ε γ} {R : α → β → Prop} {S : α → γ → Prop}
    {xs : List α} {ys : List β} (hR : List.Forall₂ R xs ys)
    (hf : ∀ x ∈ xs, ∀ y, R x y → ∃ z, f y = .ok z ∧ S x z) :
    ∃ zs, ys.mapM f = .ok zs ∧ List.Forall₂ S xs zs := by
  induction hR with
  | nil => exact ⟨[], rfl, .nil⟩
  | @cons x y xs ys hxy _ ih =>
    obtain ⟨z, hz, hxz⟩ := hf x (by simp) y hxy
    obtain ⟨zs, hzs, hxs⟩ := ih fun x' hx' => hf x' (by simp [hx'])
    refine ⟨z :: zs, ?_, .cons hxz hxs⟩
    simp only [List.mapM_cons, hz, hzs]
    rfl

/-- Relations that agree on what a list holds relate it to the same lists. -/
theorem forall₂_congr_of_mem {p : α → Prop} {R S : α → β → Prop} {xs : List α} {ys : List β}
    (hxs : ∀ x ∈ xs, p x) (h : ∀ x y, p x → (R x y ↔ S x y)) :
    List.Forall₂ R xs ys ↔ List.Forall₂ S xs ys := by
  have hp : ∀ Q : α → β → Prop,
      List.Forall₂ Q xs ys ↔ List.Forall₂ (fun x y => p x ∧ Q x y) xs ys := by
    intro Q
    rw [List.forall₂_and_left]
    exact ⟨fun hQ => ⟨hxs, hQ⟩, And.right⟩
  rw [hp R, hp S]
  constructor
  · exact .imp fun x y ⟨hx, hR⟩ => ⟨hx, (h x y hx).1 hR⟩
  · exact .imp fun x y ⟨hx, hS⟩ => ⟨hx, (h x y hx).2 hS⟩

/-- What the relation says about its left side holds of all that a related list holds. -/
theorem forall_mem_of_forall₂ {p : α → Prop} {R : α → β → Prop} {xs : List α} {ys : List β}
    (hR : List.Forall₂ R xs ys) (h : ∀ x y, R x y → p x) : ∀ x ∈ xs, p x :=
  ((List.forall₂_and_left _ _).1 (hR.imp fun x y hxy => ⟨h x y hxy, hxy⟩)).1

/-- If all that a list holds is related to something, a whole list is related to it. -/
theorem exists_forall₂ {R : α → β → Prop} {xs : List α} (h : ∀ x ∈ xs, ∃ y, R x y) :
    ∃ ys, List.Forall₂ R xs ys := by
  induction xs with
  | nil => exact ⟨[], .nil⟩
  | cons x xs ih =>
    obtain ⟨y, hy⟩ := h x (by simp)
    obtain ⟨ys, hys⟩ := ih fun x' hx' => h x' (by simp [hx'])
    exact ⟨y :: ys, .cons hy hys⟩

/-- A list that is related to two lists one after the other is two such lists itself. -/
theorem exists_append_of_forall₂ {R : α → β → Prop} {xs xs' : List α} {ys : List β}
    (hR : List.Forall₂ R (xs ++ xs') ys) :
    ∃ front back, ys = front ++ back ∧ List.Forall₂ R xs front ∧ List.Forall₂ R xs' back := by
  induction xs generalizing ys with
  | nil => exact ⟨[], ys, rfl, .nil, hR⟩
  | cons x xs ih =>
    obtain _ | ⟨hx, hrest⟩ := hR
    obtain ⟨front, back, rfl, hfront, hback⟩ := ih hrest
    exact ⟨_ :: front, back, rfl, .cons hx hfront, hback⟩

/-- A list that is related to one with a last element has a last element too. -/
theorem forall₂_concat_left_iff {R : α → β → Prop} {xs : List α} {x : α} {ys : List β} :
    List.Forall₂ R (xs ++ [x]) ys ↔
      ∃ front last, ys = front ++ [last] ∧ List.Forall₂ R xs front ∧ R x last := by
  constructor
  · induction xs generalizing ys with
    | nil =>
      rintro (_ | ⟨hx, hnil⟩)
      obtain rfl := List.forall₂_nil_left_iff.1 hnil
      exact ⟨[], _, rfl, .nil, hx⟩
    | cons x' xs ih =>
      rintro (_ | ⟨hx, hrest⟩)
      obtain ⟨front, last, rfl, hfront, hlast⟩ := ih hrest
      exact ⟨_ :: front, last, rfl, .cons hx hfront, hlast⟩
  · rintro ⟨front, last, rfl, hfront, hlast⟩
    exact List.rel_append hfront (.cons hlast .nil)

/-- Related lists are split at the same place. -/
theorem exists_split_of_forall₂ {R : α → β → Prop} {before after : List α} {x : α} {ys : List β}
    (hR : List.Forall₂ R (before ++ x :: after) ys) :
    ∃ front y back, ys = front ++ y :: back ∧ List.Forall₂ R before front ∧ R x y := by
  induction before generalizing ys with
  | nil =>
    obtain _ | ⟨hx, -⟩ := hR
    exact ⟨[], _, _, rfl, .nil, hx⟩
  | cons x' before ih =>
    obtain _ | ⟨hx', hrest⟩ := hR
    obtain ⟨front, y, back, rfl, hfront, hx⟩ := ih hrest
    exact ⟨_ :: front, y, back, rfl, .cons hx' hfront, hx⟩

/-- What stands at a place of one list is related to what stands there in the other. -/
theorem exists_getElem?_of_forall₂ {R : α → β → Prop} {xs : List α} {ys : List β} {i : Nat} {x : α}
    (hR : List.Forall₂ R xs ys) (hx : xs[i]? = some x) : ∃ y, ys[i]? = some y ∧ R x y := by
  induction hR generalizing i with
  | nil => simp at hx
  | @cons x' y' xs ys hxy _ ih =>
    cases i with
    | zero =>
      obtain rfl : x' = x := by simpa using hx
      exact ⟨y', rfl, hxy⟩
    | succ i =>
      obtain ⟨y, hy, hR⟩ := ih (by simpa using hx)
      exact ⟨y, by simpa using hy, hR⟩

end ForeignWrap
