import ForeignWrap.Proofs.Syntax.Item

/-!
# Where a `use` ends

What a `use` brings in holds no semicolon outside brackets, and neither does a path. So a `use` of a
path ends with the first semicolon, whatever the path is.

## Main results

* `ForeignWrap.Syntax.rest_of_useItem`: a `use` ends with the semicolon after its path.
* `ForeignWrap.Syntax.rest_of_externBlock`: an empty block for a foreign library is one item.
* `ForeignWrap.Syntax.not_mem_semicolon_of_pathOf`: a path holds no semicolon.
-/

namespace ForeignWrap.Syntax

open Code (Delimiter Token word parens brackets braces)
open Syntax.Parser

section Readers

variable {g : Grammar} {input final : Input} {rest : List Token}

/-- An item after its attributes. -/
theorem exists_itemAfter?_of_readItem {contents : List (List Token)} {item : Item}
    (hrest : input.rest = contents.flatMap (Code.op "#" ++ brackets ·) ++ rest)
    (hnext : atOp "#" rest = false) (h : g.readItem input = .ok (item, final)) :
    ∃ attrs start found last, start.rest = rest ∧ g.itemAfter? attrs start = .ok (found, last) ∧
      final.rest = last.rest := by
  obtain ⟨found, last, hread, hlast, -⟩ := orRaw_eq_ok h
  obtain ⟨attrs, start, hattrs, hread⟩ := bind_input_eq_ok_iff.1 hread
  exact ⟨attrs, start, found, last, rest_of_outerAttributes hrest hnext hattrs, hread, hlast⟩

/-- The block for a foreign library is an item. -/
theorem rest_of_externBlock {attrs : List Attribute} {found : Option Item}
    (hrest : input.rest =
      word "unsafe" ++ (word "extern" ++ (.literal "\"C\"" :: (braces [] ++ rest))))
    (h : g.itemAfter? attrs input = .ok (found, final)) : final.rest = rest := by
  have hword : ∀ k ≠ "unsafe", atWord k input.rest = false := by
    intro k hk
    rw [hrest]
    simp [word, atWord, hk.symm]
  obtain ⟨visible, hvisible, -, h⟩ :=
    (reads_visibility_inherited (hword "pub" (by decide))).of_bind_eq_ok h
  rw [← hvisible] at hword hrest
  have h := ahead_bind_eq_ok_iff.1 h
  have hsignature : atSignature false visible.rest = false := by
    rw [hrest]
    rfl
  have hunsafe : atWord "unsafe" visible.rest = true := by
    rw [hrest]
    rfl
  have hnext : ∀ k ≠ "extern", atWord k (skip visible.rest) = false := by
    intro k hk
    rw [hrest]
    simp [word, skip, atWord, hk.symm]
  have hextern : atWord "extern" (skip visible.rest) = true := by
    rw [hrest]
    rfl
  simp only [hsignature, hword "extern" (by decide), hword "static" (by decide), hunsafe,
    hnext "trait" (by decide), hnext "auto" (by decide), hnext "impl" (by decide), hextern,
    Bool.false_and, Bool.or_self, Bool.false_eq_true, if_false, if_true] at h
  obtain ⟨used, hused, -, h⟩ := (reads_keyword?_false (hword "use" (by decide))).of_bind_eq_ok h
  rw [← hused] at hword hrest
  obtain ⟨const, hconst, -, h⟩ := (reads_keyword?_false (hword "const" (by decide))).of_bind_eq_ok h
  rw [← hconst] at hrest
  obtain ⟨item, hitem, -⟩ := map_input_eq_ok_iff.1 h
  have hmarked : Reads (keyword? "unsafe") const.rest true
      (word "extern" ++ (.literal "\"C\"" :: (braces [] ++ rest))) := by
    rw [hrest]
    exact reads_keyword?_true _ _
  obtain ⟨marked, hmarked, -, hitem⟩ := hmarked.of_bind_eq_ok hitem
  have hopened : Reads (keyword "extern") marked.rest ()
      (.literal "\"C\"" :: (braces [] ++ rest)) := by
    rw [hmarked]
    exact reads_keyword _ _
  obtain ⟨opened, hopened, -, hitem⟩ := hopened.of_bind_eq_ok hitem
  have habi : Reads string? opened.rest (some "\"C\"") (braces [] ++ rest) := by
    rw [hopened]
    exact reads_ahead_bind ((reads_literal _ _).bind (reads_pure _ _))
  obtain ⟨closed, hclosed, -, hitem⟩ := habi.of_bind_eq_ok hitem
  obtain ⟨content, inner, rest', hgroup, -, hfinal, -⟩ := inside_eq_ok hitem
  rw [hclosed] at hgroup
  exact hfinal.trans (List.cons.inj hgroup).2.symm

/-! ## Uses -/

/-- What was taken between two states of the input holds no semicolon. -/
def TakesNoSemicolon (input final : Input) : Prop :=
  ∃ used, input.rest = used ++ final.rest ∧ ∀ joint, .sign ';' joint ∉ used

namespace TakesNoSemicolon

variable {middle : Input}

theorem refl (input : Input) : TakesNoSemicolon input input :=
  ⟨[], rfl, by simp⟩

theorem trans (h : TakesNoSemicolon input middle) (h' : TakesNoSemicolon middle final) :
    TakesNoSemicolon input final := by
  obtain ⟨used, hused, hno⟩ := h
  obtain ⟨used', hused', hno'⟩ := h'
  refine ⟨used ++ used', by rw [hused, hused', List.append_assoc], fun joint hmem => ?_⟩
  obtain hmem | hmem := List.mem_append.1 hmem
  · exact hno joint hmem
  · exact hno' joint hmem

theorem of_token {t : Token} (hrest : input.rest = t :: final.rest)
    (ht : ∀ joint, t ≠ .sign ';' joint) : TakesNoSemicolon input final :=
  ⟨[t], hrest, fun joint hmem => ht joint (List.mem_singleton.1 hmem).symm⟩

end TakesNoSemicolon

theorem takesNoSemicolon_of_afterOp? {cs : List Char} {tokens rest : List Token}
    (h : afterOp? cs tokens = some rest) (hcs : ';' ∉ cs) :
    ∃ used, tokens = used ++ rest ∧ ∀ joint, .sign ';' joint ∉ used := by
  fun_induction afterOp? cs tokens with
  | case1 => cases h
  | case2 c joint tail =>
    cases h
    refine ⟨[.sign c joint], rfl, fun joint' hmem => ?_⟩
    cases List.mem_singleton.1 hmem
    exact hcs List.mem_cons_self
  | case3 => cases h
  | case4 c next cs d joint tail hsame ih =>
    obtain ⟨used, rfl, hno⟩ := ih h fun hmem => hcs (List.mem_cons_of_mem _ hmem)
    obtain ⟨rfl, -⟩ : c = d ∧ joint = true := by simpa using hsame
    refine ⟨.sign c joint :: used, rfl, fun joint' hmem => ?_⟩
    obtain heq | hmem := List.mem_cons.1 hmem
    · cases heq
      exact hcs List.mem_cons_self
    · exact hno joint' hmem
  | case5 => cases h
  | case6 => cases h

theorem takesNoSemicolon_of_op? {signs : String} {found : Bool} (hsigns : ';' ∉ signs.toList)
    (h : op? signs input = .ok (found, final)) : TakesNoSemicolon input final := by
  have h := ahead_bind_eq_ok_iff.1 h
  cases hafter : afterOp? signs.toList input.rest with
  | none =>
    rw [hafter] at h
    cases h
    exact .refl _
  | some rest =>
    rw [hafter] at h
    cases h
    exact takesNoSemicolon_of_afterOp? hafter hsigns

theorem takesNoSemicolon_of_keyword? {text : String} {found : Bool}
    (h : keyword? text input = .ok (found, final)) : TakesNoSemicolon input final := by
  obtain ⟨rfl, rfl, -⟩ | ⟨rfl, rest, hrest, rfl⟩ := keyword?_eq_ok h
  · exact .refl _
  · exact .of_token hrest (by simp)

theorem takesNoSemicolon_of_anyWord {text : String} (h : anyWord input = .ok (text, final)) :
    TakesNoSemicolon input final := by
  obtain ⟨rest, hrest, rfl⟩ := anyWord_eq_ok h
  exact .of_token hrest (by simp)

theorem takesNoSemicolon_of_name {text : String} (h : name input = .ok (text, final)) :
    TakesNoSemicolon input final := by
  obtain ⟨-, rest, hrest, rfl⟩ := name_eq_ok h
  exact .of_token hrest (by simp)

/-- What a `use` brings in holds no semicolon. -/
theorem takesNoSemicolon_of_useTree? {depth : Nat} {rooted : Bool} {found : Option UseTree}
    (h : useTree? depth rooted input = .ok (found, final)) : TakesNoSemicolon input final := by
  induction depth generalizing input final rooted found with
  | zero => cases h
  | succ depth ih =>
    have h := ahead_bind_eq_ok_iff.1 h
    split at h
    case isTrue =>
      obtain ⟨first, named, hfirst, h⟩ := bind_input_eq_ok_iff.1 h
      refine (takesNoSemicolon_of_anyWord hfirst).trans ?_
      obtain ⟨colons, opened, hcolons, hafter⟩ := bind_input_eq_ok_iff.1 h
      refine (takesNoSemicolon_of_op? (by decide) hcolons).trans ?_
      cases colons with
      | true =>
        obtain ⟨tree, last, htree, hlast⟩ := bind_input_eq_ok_iff.1 hafter
        cases hlast
        exact ih htree
      | false =>
        obtain ⟨renamed, marked, has, hafter⟩ := bind_input_eq_ok_iff.1 hafter
        refine (takesNoSemicolon_of_keyword? has).trans ?_
        cases renamed with
        | false =>
          cases hafter
          exact .refl _
        | true =>
          obtain ⟨hidden, last, hhidden, hafter⟩ := bind_input_eq_ok_iff.1 hafter
          refine (takesNoSemicolon_of_keyword? hhidden).trans ?_
          cases hidden with
          | true =>
            cases hafter
            exact .refl _
          | false =>
            have hafter := ahead_bind_eq_ok_iff.1 hafter
            split at hafter
            case isTrue =>
              obtain ⟨name, last, hname, hafter⟩ := bind_input_eq_ok_iff.1 hafter
              cases hafter
              exact takesNoSemicolon_of_name hname
            case isFalse => cases hafter
    case isFalse =>
      obtain ⟨star, starred, hstar, hafter⟩ := bind_input_eq_ok_iff.1 h
      refine (takesNoSemicolon_of_op? (by decide) hstar).trans ?_
      cases star with
      | true =>
        cases hafter
        exact .refl _
      | false =>
        obtain ⟨rfl, -⟩ := eq_of_op?_eq_ok_false hstar
        simp only [Bool.false_eq_true, if_false] at hafter
        split at hafter
        case isTrue =>
          obtain ⟨trees, last, htrees, hafter⟩ := bind_input_eq_ok_iff.1 hafter
          cases hafter
          obtain ⟨content, inner, rest, hrest, -, rfl, -⟩ := inside_eq_ok htrees
          exact .of_token hrest (by simp)
        case isFalse => cases hafter

/-- The first semicolon is where both say that it is. -/
theorem rest_eq_of_first_semicolon {used used' rest rest' : List Token} {joint joint' : Bool}
    (h : used ++ .sign ';' joint :: rest = used' ++ .sign ';' joint' :: rest')
    (hused : ∀ joint, .sign ';' joint ∉ used) (hused' : ∀ joint, .sign ';' joint ∉ used') :
    rest = rest' := by
  induction used generalizing used' with
  | nil =>
    cases used' with
    | nil => exact (List.cons.inj h).2
    | cons t used' =>
      obtain ⟨rfl, -⟩ := List.cons.inj h
      exact absurd List.mem_cons_self (hused' joint)
  | cons t used ih =>
    cases used' with
    | nil =>
      obtain ⟨rfl, -⟩ := List.cons.inj h
      exact absurd List.mem_cons_self (hused joint')
    | cons t' used' =>
      exact ih (List.cons.inj h).2 (fun j hmem => hused j (List.mem_cons_of_mem _ hmem))
        fun j hmem => hused' j (List.mem_cons_of_mem _ hmem)

/-- A `use` ends with the first semicolon. -/
theorem rest_of_useItem {attrs : List Attribute} {found : Option Item} {path : List Token}
    (hpath : ∀ joint, .sign ';' joint ∉ path)
    (hrest : input.rest = word "use" ++ (path ++ (Code.op ";" ++ rest)))
    (h : g.itemAfter? attrs input = .ok (found, final)) : final.rest = rest := by
  have hword : ∀ k ≠ "use", atWord k input.rest = false := by
    intro k hk
    rw [hrest]
    simp [word, atWord, hk.symm]
  obtain ⟨visible, hvisible, -, h⟩ :=
    (reads_visibility_inherited (hword "pub" (by decide))).of_bind_eq_ok h
  rw [← hvisible] at hword hrest
  have h := ahead_bind_eq_ok_iff.1 h
  have hsignature : atSignature false visible.rest = false := by
    rw [hrest]
    rfl
  simp only [hsignature, hword "extern" (by decide), Bool.false_eq_true, if_false] at h
  have huse : Reads (keyword? "use") visible.rest true (path ++ (Code.op ";" ++ rest)) := by
    rw [hrest]
    exact reads_keyword?_true _ _
  obtain ⟨opened, hopened, -, h⟩ := huse.of_bind_eq_ok h
  obtain ⟨rooted, between, hrooted, h⟩ := bind_input_eq_ok_iff.1 h
  have h := ahead_bind_eq_ok_iff.1 h
  obtain ⟨tree, read, htree, hlast⟩ := bind_input_eq_ok_iff.1 h
  obtain ⟨_, closed, hclose, hend⟩ := bind_input_eq_ok_iff.1 hlast
  cases hend
  obtain ⟨used, hused, hno⟩ := (takesNoSemicolon_of_op? (by decide) hrooted).trans
    (takesNoSemicolon_of_useTree? htree)
  obtain ⟨joint, rest', hsemicolon, rfl⟩ := op_eq_ok_of_sign (c := ';') rfl hclose
  rw [hopened, hsemicolon] at hused
  exact (rest_eq_of_first_semicolon hused hpath hno).symm

end Readers

/-! ## Paths -/

theorem Mark.not_mem_semicolon_of_run {nesting last : Mark.Nesting} {tokens : List Token}
    (h : nesting.run tokens = some last) (joint : Bool) : .sign ';' joint ∉ tokens := by
  induction tokens generalizing nesting with
  | nil => simp
  | cons t tokens ih =>
    obtain ⟨middle, hstep, hrun⟩ := Option.bind_eq_some_iff.1 h
    intro hmem
    obtain rfl | hmem := List.mem_cons.1 hmem
    · obtain ⟨mark, open_⟩ := nesting
      cases mark <;> cases hstep
    · exact ih hrun hmem

/-- A path that a text says holds no semicolon. -/
theorem not_mem_semicolon_of_pathOf {text : String} {path : Written .path}
    (h : pathOf text = .ok path) (joint : Bool) : .sign ';' joint ∉ path.tokens := by
  obtain ⟨tokens, -, h⟩ := bind_eq_ok_iff.1 h
  obtain ⟨⟨tree, written⟩, hrun, h⟩ := bind_eq_ok_iff.1 h
  cases h
  obtain ⟨last, hread, -, rfl⟩ := run_eq_ok hrun
  obtain ⟨_, _, -, used, written, -, htaken, hscans⟩ := scans_path (scanned_atDepth _) hread
  obtain ⟨-, mark, hleads, -⟩ := hscans .start (List.mem_of_elem_eq_true rfl)
  have hwritten : last.taken.reverse = written := by simp [htaken]
  rw [hwritten]
  exact Mark.not_mem_semicolon_of_run (hleads []) joint

end ForeignWrap.Syntax
