import ForeignWrap.Proofs.Syntax.ImplBlock

/-!
# Imports as code

The code that links a library and the code that imports all of a module are each read as an item.

## Main definitions

* `ForeignWrap.Syntax.Grammar.reads_readItem_foreign`: the block for a foreign library.
* `ForeignWrap.Syntax.Grammar.reads_readItem_useAll`: the import of all that a path holds.
-/

namespace ForeignWrap.Syntax

open Code (Delimiter Token word brackets braces)
open Syntax.Parser

variable {rest : List Token}

/-! ## Paths -/

/-- A word that can be a part of a path that is imported. -/
def IsUseWord (text : String) : Prop :=
  isName text = true ∨ text = "crate"

/-- The parts of a path, each with the colons after it. -/
def usePathCode (words : List String) : List Token :=
  words.flatMap fun text => word text ++ Code.op "::"

/-- What brings in all that a path holds. -/
def useAll : List String → UseTree
  | [] => .glob
  | first :: words => .path first (useAll words)

theorem reads_useTree?_useAll {words : List String} (hwords : ∀ text ∈ words, IsUseWord text)
    {depth : Nat} (hdepth : words.length < depth) (rooted : Bool) :
    Reads (useTree? depth rooted) (usePathCode words ++ (Code.op "*" ++ rest)) (some (useAll words))
      rest := by
  induction words generalizing depth rooted with
  | nil =>
    obtain ⟨depth, rfl⟩ := Nat.exists_eq_add_one.2 hdepth
    have hstar : Reads (op? "*") (Code.op "*" ++ rest) true rest := reads_op?_true rfl
    refine reads_ahead_bind ?_
    rw [if_neg (by exact Bool.false_ne_true)]
    exact hstar.bind (reads_pure _ _)
  | cons first words ih =>
    obtain ⟨depth, rfl⟩ := Nat.exists_eq_add_one.2 (Nat.lt_of_le_of_lt (Nat.zero_le _) hdepth)
    obtain ⟨hfirst, hwords⟩ := List.forall_mem_cons.1 hwords
    have hword : Reads anyWord (usePathCode (first :: words) ++ (Code.op "*" ++ rest)) first
        (Code.op "::" ++ (usePathCode words ++ (Code.op "*" ++ rest))) := reads_anyWord _ _
    have hcolons : Reads (op? "::") (Code.op "::" ++ (usePathCode words ++ (Code.op "*" ++ rest)))
        true (usePathCode words ++ (Code.op "*" ++ rest)) := reads_op?_true rfl
    have hstart : atName (usePathCode (first :: words) ++ (Code.op "*" ++ rest)) = true ∨
        atWord "crate" (usePathCode (first :: words) ++ (Code.op "*" ++ rest)) = true :=
      hfirst.imp id fun hcrate => by simp [usePathCode, word, atWord, hcrate]
    refine reads_ahead_bind ?_
    rw [if_pos (by rcases hstart with h | h <;> simp [h])]
    exact hword.bind (hcolons.bind
      ((ih hwords (Nat.lt_of_succ_lt_succ hdepth) false).bind (reads_pure _ _)))

namespace Grammar

variable (g : Grammar)

/-! ## Items -/

/-- An empty block for a foreign library. -/
def foreignItem (attrs : List Attribute) : Item :=
  .externItem (.ofList attrs) true ⟨some "\"C\""⟩ .nil

/-- The block for a foreign library is an item. -/
theorem reads_readItem_foreign {content : List Token} {attr : Attribute}
    (hattr : g.IsAttribute content attr) :
    Reads g.readItem (Code.op "#" ++ brackets content ++
      (word "unsafe" ++ (word "extern" ++ (.literal "\"C\"" :: (braces [] ++ rest)))))
      (foreignItem [attr]) rest := by
  have hattrs : Reads g.outerAttributes ([content].flatMap (Code.op "#" ++ brackets ·) ++
      (word "unsafe" ++ (word "extern" ++ (.literal "\"C\"" :: (braces [] ++ rest))))) [attr]
      (word "unsafe" ++ (word "extern" ++ (.literal "\"C\"" :: (braces [] ++ rest)))) :=
    reads_outerAttributes g (.cons hattr .nil) rfl
  rw [List.flatMap_singleton] at hattrs
  have hblock : Reads (g.externBlock [attr] .inherited)
      (word "unsafe" ++ (word "extern" ++ (.literal "\"C\"" :: (braces [] ++ rest))))
      (foreignItem [attr]) rest := by
    have habi : Reads string? (.literal "\"C\"" :: (braces [] ++ rest)) (some "\"C\"")
        (braces [] ++ rest) := reads_ahead_bind ((reads_literal _ _).bind (reads_pure _ _))
    refine (reads_keyword?_true _ _).bind ((reads_keyword _ _).bind (habi.bind (reads_inside ?_)))
    refine (reads_innerAttributes_nil (.inl rfl)).bind ?_
    exact (reads_untilEnd (.done (reads_endStep_none _))).bind (reads_pure _ _)
  apply reads_orRaw
  refine hattrs.bind ((reads_visibility_inherited rfl).bind (reads_ahead_bind ?_))
  rw [if_neg (by exact Bool.false_ne_true), if_neg (by exact Bool.false_ne_true)]
  refine (reads_keyword?_false rfl).bind ?_
  rw [if_neg (by exact Bool.false_ne_true), if_neg (by exact Bool.false_ne_true)]
  refine (reads_keyword?_false rfl).bind ?_
  exact hblock.map some

/-- An import of all that a path holds. -/
def useAllItem (attrs : List Attribute) (words : List String) : Item :=
  .useItem (.ofList attrs) .inherited false (useAll words)

/-- The import of all that a path holds is an item. -/
theorem reads_readItem_useAll {content : List Token} {attr : Attribute} {words : List String}
    (hattr : g.IsAttribute content attr) (hwords : ∀ text ∈ words, IsUseWord text) :
    Reads g.readItem (Code.op "#" ++ brackets content ++
      (word "use" ++ (usePathCode words ++ (Code.op "*" ++ (Code.op ";" ++ rest)))))
      (useAllItem [attr] words) rest := by
  have hattrs : Reads g.outerAttributes ([content].flatMap (Code.op "#" ++ brackets ·) ++
      (word "use" ++ (usePathCode words ++ (Code.op "*" ++ (Code.op ";" ++ rest))))) [attr]
      (word "use" ++ (usePathCode words ++ (Code.op "*" ++ (Code.op ";" ++ rest)))) :=
    reads_outerAttributes g (.cons hattr .nil) rfl
  rw [List.flatMap_singleton] at hattrs
  have huse : Reads (keyword? "use")
      (word "use" ++ (usePathCode words ++ (Code.op "*" ++ (Code.op ";" ++ rest)))) true
      (usePathCode words ++ (Code.op "*" ++ (Code.op ";" ++ rest))) := reads_keyword?_true _ _
  have hrooted : Reads (op? "::")
      (usePathCode words ++ (Code.op "*" ++ (Code.op ";" ++ rest))) false
      (usePathCode words ++ (Code.op "*" ++ (Code.op ";" ++ rest))) :=
    reads_op?_false (by cases words <;> rfl)
  have hlength : words.length ≤
      Code.sizeOf (usePathCode words ++ (Code.op "*" ++ (Code.op ";" ++ rest))) := by
    rw [Code.sizeOf_append]
    refine Nat.le_trans ?_ (Nat.le_add_right _ _)
    clear hattrs huse hrooted hwords
    induction words with
    | nil => simp
    | cons first words ih =>
      simp [usePathCode, List.flatMap_cons, List.length_cons] at ih ⊢
      have hone : 1 ≤ Code.sizeOf (word first) := by simp
      omega
  apply reads_orRaw
  refine hattrs.bind ((reads_visibility_inherited rfl).bind (reads_ahead_bind ?_))
  rw [if_neg (by exact Bool.false_ne_true), if_neg (by exact Bool.false_ne_true)]
  refine huse.bind (hrooted.bind (reads_ahead_bind ?_))
  refine (reads_useTree?_useAll hwords (Nat.lt_succ_of_le hlength) _).bind ?_
  exact (reads_op (by decide) _).bind (reads_pure _ _)

end Grammar

end ForeignWrap.Syntax
