import ForeignWrap.Proofs.Code.Name
import ForeignWrap.Proofs.Directive.Grammar
import ForeignWrap.Proofs.Method.Scope

/-!
# Whether the arguments of a method are different variables

The host arguments of a directive have different names, as texts. The variables are what these texts
say, and two texts can say one word. So the variables are different exactly if no two of the names
are one word, but for comments, direction marks and the mark of a raw word.

## Main definitions

* `ForeignWrap.Method.boundNames`: the names that a method binds for its arguments.
* `ForeignWrap.Method.BindsVariables`: when these are different.
* `ForeignWrap.Method.bindsVariables_of_ofDirective_eq_ok`: this is so in every method.
-/

namespace ForeignWrap

/-! ## Names without comments -/

namespace Code

/-- A text holds nothing that could be a comment, spacing, a byte order mark, or the mark of a raw
word. -/
def IsBare (text : String) : Prop :=
  ∀ c ∈ text.toList, c ≠ '/' ∧ c ≠ '#' ∧ isSpacing c = false ∧ c.toNat ≠ 0xFEFF

instance : DecidablePred IsBare :=
  fun text => inferInstanceAs (Decidable (∀ c ∈ text.toList, _))

/-- Where there is no comment and no spacing, none is taken off. -/
theorem Skips.eq_of_forall_ne {cs after : List Char} (h : Skips cs after)
    (hcs : ∀ c ∈ cs, c ≠ '/' ∧ isSpacing c = false) : after = cs := by
  cases h with
  | refl => rfl
  | @spacing c cs _ hspacing _ =>
    rw [(hcs c (by simp)).2] at hspacing
    cases hspacing
  | comment hcomment _ =>
    cases cs with
    | nil => cases hcomment
    | cons c cs =>
      rw [afterComment?_eq_none (hcs c (by simp)).1] at hcomment
      cases hcomment

/-- A text without comments and spacing says nothing but itself. -/
theorem SaysWord.eq_of_isBare {text word : String} (h : SaysWord text word) (htext : IsBare text) :
    word = text := by
  obtain ⟨-, after, hskips, hafter⟩ := h
  have hmark : dropOrderMark text.toList = text.toList := by
    unfold dropOrderMark
    split
    · next c rest heq => rw [if_neg (htext c (by simp [heq])).2.2.2, heq]
    · next heq => exact heq.symm
  rw [hmark] at hskips
  have hwhole : word.toList ++ after = text.toList :=
    hskips.eq_of_forall_ne fun c hc => ⟨(htext c hc).1, (htext c hc).2.2.1⟩
  have hnil : [] = after := by
    refine hafter.eq_of_forall_ne fun c hc => ?_
    have hmem : c ∈ text.toList := by simp [← hwhole, hc]
    exact ⟨(htext c hmem).1, (htext c hmem).2.2.1⟩
  rw [← hnil, List.append_nil] at hwhole
  exact String.toList_inj.1 hwhole

end Code

namespace Call

theorem identifier_eq_ok_iff {text name : String} :
    identifier text = .ok name ↔ Code.SaysWord text name ∧ Syntax.isName name = true :=
  mapError_eq_ok_iff.trans Syntax.nameOf_eq_ok_iff

end Call

namespace Method

open Code (SaysWord IsBare)
open Directive (HostArg)
open Call (identifier)

variable {config : Config} {d : Directive} {docs : List Doc} {m : Method}

/-! ## The names that a method binds -/

/-- The name that a step gives the receiver. -/
def Step.receiverName? : Step → Option String
  | .nameReceiver name => some name
  | _ => none

/-- The names that a body gives the receiver. -/
def Body.receiverNames : Body → List String
  | .wrap steps _ => steps.filterMap (·.receiverName?)
  | .distinct _ _ => []

/-- The names that a method binds for its arguments: in its body for the receiver, and in its head
for the others. -/
def boundNames (m : Method) : List String :=
  m.body.receiverNames ++ m.params.map (·.name)

theorem filterMap_contextSteps (receiver : HostArg) (name : String) :
    (contextSteps config receiver name).filterMap (·.receiverName?) = [name] := by
  unfold contextSteps
  split_ifs <;> rfl

theorem filterMap_arraySteps (handleType : List Code.Token) (fixed : List Call.Arg)
    (sequence : String) (element : Call.Arg) :
    (arraySteps handleType fixed sequence element).filterMap (·.receiverName?) = [] := by
  simp [arraySteps, Step.receiverName?]

/-- Of all steps, the first one alone names the receiver. -/
theorem filterMap_of_steps_eq_ok {function receiverName : String} {args : List Call.Arg}
    {receiver : HostArg} {hosts : List (HostArg × String)} {ss : List Step}
    (h : steps config function args receiver receiverName hosts = .ok ss) :
    ss.filterMap (·.receiverName?) = [receiverName] := by
  obtain ⟨sequence, element, handleType, -, -, rfl⟩ | ⟨-, rfl⟩ := steps_cases h
  · simp only [List.filterMap_append, filterMap_contextSteps, filterMap_arraySteps]
    rfl
  · rw [List.filterMap_append, filterMap_contextSteps]
    simp [Step.receiverName?]

/-- A method binds what the names of its host arguments are read as, in their order. -/
theorem forall₂_boundNames (hm : ofDirective config d docs = .ok m) :
    List.Forall₂ (fun host name => identifier host.name = .ok name) d.hostArgs m.boundNames := by
  obtain ⟨w⟩ := nonempty_wrapped hm
  simp only [boundNames, w.body_eq, Body.receiverNames, filterMap_of_steps_eq_ok w.steps_eq]
  exact w.forall₂_names

/-! ## When they are different -/

/-- The arguments of the method for a directive as variables. -/
structure BindsVariables (d : Directive) (m : Method) : Prop where
  /-- They are what the names of the host arguments say, in their order. -/
  forall₂_saysWord : List.Forall₂ (fun host name => SaysWord host.name name) d.hostArgs m.boundNames
  /-- They are different as texts exactly if no two names of host arguments say one word. -/
  nodup_iff : m.boundNames.Nodup ↔
    d.hostArgs.Pairwise fun a b => ∀ word, SaysWord a.name word → ¬ SaysWord b.name word
  /-- They are different variables exactly if no two names say one word, be it raw or not. -/
  nodup_bareName_iff : (m.boundNames.map bareName).Nodup ↔
    d.hostArgs.Pairwise fun a b => ∀ word word', SaysWord a.name word → SaysWord b.name word' →
      bareName word ≠ bareName word'
  /-- So they are different where names are written without anything that could vanish. -/
  nodup_of_isBare : (∀ host ∈ d.hostArgs, IsBare host.name) → (m.boundNames.map bareName).Nodup

/-- What is so of any two elements of a list is so of any two that are related to them. -/
theorem pairwise_iff_of_forall₂ {α β : Type} {R : α → β → Prop} {P : α → α → Prop}
    {Q : β → β → Prop} {xs : List α} {ys : List β} (h : List.Forall₂ R xs ys)
    (hiff : ∀ x y x' y', R x y → R x' y' → (P x x' ↔ Q y y')) : xs.Pairwise P ↔ ys.Pairwise Q := by
  induction h with
  | nil => simp
  | @cons x y xs ys hxy hrest ih =>
    have hfirst : (∀ x' ∈ xs, P x x') ↔ ∀ y' ∈ ys, Q y y' := by
      clear ih
      induction hrest with
      | nil => simp
      | @cons x' y' xs ys hxy' _ ih =>
        rw [List.forall_mem_cons, List.forall_mem_cons, hiff x y x' y' hxy hxy', ih]
    rw [List.pairwise_cons, List.pairwise_cons, hfirst, ih]

theorem bareName_eq_self {name : String} (h : IsBare name) : bareName name = name := by
  rw [bareName]
  cases hraw : Text.dropStart? "r#" name with
  | none => rfl
  | some rest =>
    have hmem : '#' ∈ name.toList := by
      rw [Text.dropStart?_eq_some_iff.1 hraw]
      simp
    exact absurd rfl (h '#' hmem).2.1

/-- **The variables of a method are different exactly if the names of its directive say different
words**, which different texts do if nothing in them could vanish. -/
theorem bindsVariables_of_ofDirective_eq_ok {line : String}
    (hline : Directive.ofLine config line = .ok d) (hm : ofDirective config d docs = .ok m) :
    BindsVariables d m := by
  have hwords : List.Forall₂ (fun host name => SaysWord host.name name) d.hostArgs m.boundNames :=
    (forall₂_boundNames hm).imp fun _ _ h => (Call.identifier_eq_ok_iff.1 h).1
  refine ⟨hwords, ?_, ?_, ?_⟩
  · refine (pairwise_iff_of_forall₂ hwords ?_).symm
    intro a v b w hv hw
    constructor
    · rintro h rfl
      exact h v hv hw
    · rintro h word hword hword'
      exact h ((hv.unique hword).trans (hword'.unique hw))
  · rw [List.Nodup, List.pairwise_map]
    refine (pairwise_iff_of_forall₂ hwords ?_).symm
    intro a v b w hv hw
    constructor
    · intro h
      exact h v w hv hw
    · intro h word word' hword hword'
      rw [hword.unique hv, hword'.unique hw]
      exact h
  · intro hbare
    have hsame : m.boundNames.map bareName = d.hostArgs.map (·.name) := by
      generalize d.hostArgs = hosts at hwords hbare
      generalize m.boundNames = names at hwords
      induction hwords with
      | nil => rfl
      | @cons host name hosts names hhost _ ih =>
        obtain ⟨hbareHost, hbareRest⟩ := List.forall_mem_cons.1 hbare
        obtain rfl := hhost.eq_of_isBare hbareHost
        rw [List.map_cons, List.map_cons, bareName_eq_self hbareHost, ih hbareRest]
    rw [hsame]
    exact (Directive.valid_of_ofLine_eq_ok hline).1.names_nodup

/-- A comment in one name, which is no part of the variable. -/
theorem bindsVariables_of_commented_name :
    ∃ d m,
      Directive.ofLine {} "//wrap:expr f x y/*z*/ : Z3_f x y/*z*/" = .ok d ∧
      ofDirective {} d [] = .ok m ∧ BindsVariables d m ∧ m.boundNames = ["x", "y"] := by
  have hd : Directive.ofLine {} "//wrap:expr f x y/*z*/ : Z3_f x y/*z*/" =
      .ok ⟨"f", "Expr", [⟨"x", "Expr", false⟩, ⟨"y/*z*/", "Expr", false⟩], "Z3_f",
        [.reference "x" none, .reference "y/*z*/" none], false, false⟩ := by decide +kernel
  have hnames : (ofLine {} "//wrap:expr f x y/*z*/ : Z3_f x y/*z*/" []).toOption.map boundNames =
      some ["x", "y"] := by decide +kernel
  obtain ⟨m, hline, hnames⟩ := toOption_map_eq_some_iff.1 hnames
  have hm := ofDirective_eq_ok_of_ofLine hd hline
  exact ⟨_, m, hd, hm, bindsVariables_of_ofDirective_eq_ok hd hm, hnames⟩

/-- The names `x` and `x//` are different texts, and one variable. -/
theorem exists_duplicate_boundNames :
    ∃ d m,
      Directive.ofLine {} "//wrap:expr f x x// : Z3_f x x//" = .ok d ∧
      ofDirective {} d [] = .ok m ∧ ¬ m.boundNames.Nodup := by
  have hnames : (ofLine {} "//wrap:expr f x x// : Z3_f x x//" []).toOption.map boundNames =
      some ["x", "x"] := by decide +kernel
  obtain ⟨m, hm, hnames⟩ := toOption_map_eq_some_iff.1 hnames
  obtain ⟨d, hd, hm⟩ := bind_eq_ok_iff.1 hm
  refine ⟨d, m, hd, hm, ?_⟩
  rw [hnames]
  decide

end Method

end ForeignWrap
