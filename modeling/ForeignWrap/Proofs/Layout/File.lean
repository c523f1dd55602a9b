import ForeignWrap.Layout.File
import ForeignWrap.Proofs.Layout.Expression

/-!
# Files that have a layout

Writers of statements and items never fail where those that they call do not. So the writers of any
depth write each tree that has a layout, and a file of such trees has a text.

## Main statements

* `ForeignWrap.Layout.Scribe.Writes.writeItem`: an item is written.
* `ForeignWrap.Layout.writes_atDepth`: the writers of any depth write every tree with a layout.
* `ForeignWrap.Layout.exists_fileText_eq_ok`: a file of such trees has a text.
-/

namespace ForeignWrap.Layout

open Syntax (Attribute Item ItemPlace Stmt UseTree Visibility)

/-! ## Small parts -/

theorem neverFails_visibility (seenBy : Visibility) : NeverFails (visibility seenBy) := by
  cases seenBy with
  | inherited => exact neverFails_pure _
  | everyone => exact neverFails_text _
  | within => exact (neverFails_text _).andThen ((neverFails_text _).andThen (neverFails_text _))

mutual

theorem neverFails_useTree : (tree : UseTree) → NeverFails (useTree tree)
  | .path _ tree => by
    rw [useTree]
    exact (neverFails_text _).andThen ((neverFails_text _).andThen (neverFails_useTree tree))
  | .name _ | .rename _ _ | .glob | .group [] => by
    rw [useTree]
    exact neverFails_text _
  | .group [tree] => by
    have htree := neverFails_useTree tree
    rw [useTree]
    exact .ite ((neverFails_text _).andThen <| .andThen
      (.block <| neverFails_mayEnd.andThen <| htree.flow.andThen <|
        (neverFails_comma true).andThen neverFails_outdent) (neverFails_text _)) htree
  | .group (first :: next :: rest) => by
    rw [useTree]
    exact (neverFails_text _).andThen <| .andThen
      (.block <| neverFails_mayEnd.andThen <| .andThen
        (.flow <| (neverFails_useTree first).andThen (neverFails_useTrees first (next :: rest))) <|
        (neverFails_comma true).andThen neverFails_outdent) (neverFails_text _)

theorem neverFails_useTrees (before : UseTree) :
    (trees : List UseTree) → NeverFails (useTrees before trees)
  | [] => by
    rw [useTrees]
    exact neverFails_pure _
  | tree :: rest => by
    have hrest := (neverFails_useTree tree).andThen (neverFails_useTrees tree rest)
    rw [useTrees]
    exact (neverFails_text _).andThen <|
      .ite (neverFails_newline.andThen hrest) (neverFails_space.andThen hrest)

end

namespace Scribe.Writes

variable {s : Scribe} (hs : s.Writes)
include hs

/-! ## Statements -/

theorem writeStmt (isLast : Bool) {t : Stmt} (h : t.HasLayout) :
    NeverFails (s.writeStmt isLast t) := by
  cases t with
  | emptyStmt => exact neverFails_pure _
  | letStmt _ _ init diverge =>
    have hend := (neverFails_text ";").andThen neverFails_newline
    refine (hs.outerAttributes h.1).andThen ?_
    extract_lets start
    have hstart : NeverFails start := by
      refine (neverFails_text _).andThen ((hs.pat h.2.1).andThen ?_)
      cases init with
      | absent => exact neverFails_pure _
      | present =>
        exact (neverFails_text _).andThen (neverFails_goOn.andThen (hs.expr false h.2.2.1))
    cases diverge with
    | absent => exact hstart.flow.andThen hend
    | present =>
      exact (NeverFails.flow <| hstart.andThen <| neverFails_space.andThen <|
        neverFails_text _).andThen <| neverFails_goOn.andThen <|
        (hs.smallBlock h.2.2.2).block.andThen hend
  | itemStmt item => exact hs.item .file (t := item) h
  | exprStmt value =>
    exact (NeverFails.flow <| (hs.expr true (t := value) h).andThen <|
      .ite (neverFails_text _) (neverFails_pure _)).andThen neverFails_newline
  | macroStmt =>
    exact (hs.outerAttributes h).andThen <|
      (neverFails_macroCall _ (by rintro - ⟨⟩)).andThen neverFails_newline

/-! ## Parameters and conditions -/

theorem genericParams {generics : Syntax.Tree .generics} (h : generics.HasLayout) :
    NeverFails (s.genericParams generics) := by
  cases generics with
  | generics params =>
    have hmem : ∀ t ∈ params.toList.filter isLifetimeParam ++
        params.toList.filter (!isLifetimeParam ·), t.HasLayout :=
      List.forall_mem_append.2
        ⟨fun t ht => h.1.of_mem_toList t (List.mem_of_mem_filter ht),
          fun t ht => h.1.of_mem_toList t (List.mem_of_mem_filter ht)⟩
    exact .ite ((neverFails_text _).andThen <|
      (neverFails_commaBlock fun t ht => hs.genericParam (hmem t ht)).andThen (neverFails_text _))
      (neverFails_pure _)

theorem condition {t : Syntax.Tree .condition} (h : t.HasLayout) : NeverFails (s.condition t) := by
  cases t with
  | lifetimeCondition =>
    exact (neverFails_text _).andThen <| .flow <| neverFails_each fun _ _ _ _ =>
      .ite ((neverFails_text _).andThen (neverFails_text _))
        (neverFails_space.andThen ((neverFails_text _).andThen (neverFails_text _)))
  | typeCondition =>
    refine (hs.forParams h.1).andThen <| (hs.type h.2.1).andThen <| (neverFails_text _).andThen <|
      .flow <| neverFails_each fun bound hbound _ _ => ?_
    have hwritten := hs.bound (h.2.2.of_mem_toList bound hbound)
    exact .ite ((neverFails_text _).andThen hwritten)
      (neverFails_space.andThen ((neverFails_text _).andThen hwritten))

theorem conditions (apart semicolon : Bool) {generics : Syntax.Tree .generics}
    (h : generics.HasLayout) : NeverFails (s.conditions apart semicolon generics) := by
  cases generics with
  | generics _ conditions =>
    have hedge : NeverFails (if apart then newline else space) :=
      .ite neverFails_newline neverFails_space
    refine .ite (neverFails_text _) ?_
    refine hedge.andThen <| neverFails_outdent.andThen <| (neverFails_text _).andThen <|
      hedge.andThen <| .andThen ?_ (.ite neverFails_outdent (neverFails_pure _))
    exact neverFails_each fun c hc _ isLast => (hs.condition (h.2.of_mem_toList c hc)).andThen <|
      .ite (neverFails_text _) <| .ite ((neverFails_text _).andThen neverFails_newline)
        (neverFails_commaBeforeBrace isLast)

/-! ## Functions -/

/-- The receiver of a method from its name on. -/
theorem receiverEnd (mutable : Bool) {type : Syntax.Tree (.maybe .type)} (h : type.HasLayout) :
    NeverFails (do
      keywordIf mutable "mut"
      text "self"
      if let some type := type.toOption then
        text ": "
        s.type type) := by
  refine (neverFails_keywordIf _ _).andThen ((neverFails_text _).andThen ?_)
  cases type with
  | absent => exact neverFails_pure _
  | present => exact (neverFails_text _).andThen (hs.type h)

theorem param {p : Syntax.Tree .param} (h : p.HasLayout) : NeverFails (s.param p) := by
  cases p with
  | receiver _ reference mutable =>
    have hend := hs.receiverEnd mutable h.2
    refine (hs.outerAttributes h.1).andThen ?_
    obtain _ | ⟨_ | _⟩ := reference
    · exact hend
    · exact (neverFails_text _).andThen hend
    · exact (neverFails_text _).andThen ((neverFails_text _).andThen hend)
  | typedParam =>
    exact (hs.outerAttributes h.1).andThen <| (hs.pat h.2.1).andThen <|
      (neverFails_text _).andThen (hs.type h.2.2)
  | variadicParam _ pat =>
    refine (hs.outerAttributes h.1).andThen ?_
    cases pat with
    | absent => exact neverFails_text _
    | present => exact (hs.pat h.2).andThen ((neverFails_text _).andThen (neverFails_text _))

theorem signature {sig : Syntax.Tree .signature} (h : sig.HasLayout) :
    NeverFails (s.signature sig) := by
  cases sig with
  | signature =>
    refine (neverFails_keywordIf _ _).andThen <| (neverFails_keywordIf _ _).andThen <|
      (neverFails_keywordIf _ _).andThen <| (neverFails_abi _).andThen <|
      (neverFails_text _).andThen <| (neverFails_text _).andThen <|
      (hs.genericParams h.1).andThen <|
      (neverFails_text _).andThen <| neverFails_goOn.andThen <| .andThen
        (.block <| neverFails_mayEnd.andThen <| .andThen ?_ neverFails_outdent) <|
      (neverFails_text _).andThen (hs.arrow h.2.2).block
    exact neverFails_each fun p hp _ isLast => (hs.param (h.2.1.of_mem_toList p hp)).andThen <|
      .ite neverFails_mayEnd (neverFails_comma isLast)

/-! ## Items -/

theorem body {α : Type} {attrs : List Attribute} {content : List α} {write : α → Draft}
    (hattrs : ∀ a ∈ attrs, a.HasLayout) (h : ∀ a ∈ content, NeverFails (write a)) :
    NeverFails (s.body attrs content write) :=
  (neverFails_gap _).andThen <| (hs.innerAttributes hattrs).andThen <|
    (neverFails_all h).andThen neverFails_outdent

theorem field {f : Syntax.Tree .field} (h : f.HasLayout) : NeverFails (s.field f) := by
  cases f with
  | fieldOf _ seenBy name =>
    refine (hs.outerAttributes h.1).andThen ((neverFails_visibility seenBy).andThen ?_)
    cases name with
    | none => exact hs.type h.2
    | some => exact (neverFails_text _).andThen (hs.type h.2)

theorem fieldLine {f : Syntax.Tree .field} (h : f.HasLayout) : NeverFails (s.fieldLine f) :=
  (hs.field h).andThen ((neverFails_text _).andThen neverFails_newline)

theorem unnamedFields {fields : Syntax.Tree (.many .field)} (h : fields.HasLayout) :
    NeverFails (s.unnamedFields fields.toList) :=
  (neverFails_text _).andThen <|
    (neverFails_commaBlock fun f hf => hs.field (h.of_mem_toList f hf)).andThen (neverFails_text _)

/-- A variant from its value on. -/
theorem variantEnd {value : Syntax.Tree (.maybe .expr)} (h : value.HasLayout) : NeverFails (do
    if let some value := value.toOption then
      text " = "
      s.expr false value
    text ","
    newline) := by
  have hlast := (neverFails_text ",").andThen neverFails_newline
  cases value with
  | absent => exact hlast
  | present => exact (neverFails_text _).andThen ((hs.expr false h).andThen hlast)

theorem variantLine {t : Syntax.Tree .variant} (h : t.HasLayout) :
    NeverFails (s.variantLine t) := by
  cases t with
  | variant _ _ fields =>
    have hend := hs.variantEnd h.2.2
    refine (hs.outerAttributes h.1).andThen ((neverFails_text _).andThen ?_)
    cases fields with
    | namedFields fields =>
      have hlayout : fields.HasLayout := h.2.1
      have hfields := neverFails_each fun f hf _ isLast =>
        (hs.field (hlayout.of_mem_toList f hf)).andThen (neverFails_commaBeforeBrace isLast)
      exact (neverFails_text _).andThen <| .andThen
        (.block <| neverFails_space.andThen <| hfields.andThen neverFails_outdent) <|
        (neverFails_text _).andThen hend
    | unnamedFields fields =>
      have hlayout : fields.HasLayout := h.2.1
      exact (hs.unnamedFields hlayout).block.andThen hend
    | noFields => exact hend

theorem valueAfter {value : Syntax.Tree (.maybe .expr)} (h : value.HasLayout) :
    NeverFails (s.valueAfter value) := by
  cases value with
  | absent => exact neverFails_pure _
  | present => exact (neverFails_text _).andThen (neverFails_goOn.andThen (hs.expr false h))

/-- The type of a type item, after a sign. -/
theorem definition {sign : String} {t : Syntax.Tree (.maybe .type)} (h : t.HasLayout) :
    NeverFails (do
      if let some type := t.toOption then
        text sign
        goOn
        flow (-indentStep) (s.type type)) := by
  cases t with
  | absent => exact neverFails_pure _
  | present => exact (neverFails_text _).andThen (neverFails_goOn.andThen (hs.type h).flow)

theorem writeItem (place : ItemPlace) {t : Item} (h : t.HasLayout) :
    NeverFails (s.writeItem place t) := by
  cases t with
  | fnItem _ _ _ sig code =>
    have hgenerics : (Scribe.genericsOf sig).HasLayout := by
      cases sig with
      | signature => exact h.2.1.1
    refine (hs.outerAttributes h.1).andThen <| .andThen
      (.block <| (neverFails_visibility _).andThen <| (neverFails_keywordIf _ _).andThen <|
        (hs.signature h.2.1).andThen ?_) <|
      .check (neverFails_text _) fun _ => neverFails_newline
    cases code with
    | absent => exact hs.conditions true true hgenerics
    | present code =>
      cases code with
      | block =>
        exact (hs.conditions true false hgenerics).andThen <| (neverFails_text _).andThen <|
          (neverFails_gap _).andThen <| (hs.innerAttributes h.2.2.1.of_mem_toList).andThen <|
          (hs.stmts h.2.2.2).andThen neverFails_outdent
  | externCrateItem _ _ _ newName =>
    have hend := (neverFails_text ";").andThen neverFails_newline
    refine (hs.outerAttributes h).andThen <| (neverFails_visibility _).andThen <|
      (neverFails_text _).andThen ?_
    cases newName with
    | none => exact hend
    | some => exact (neverFails_text _).andThen hend
  | externItem =>
    exact (hs.outerAttributes h.1).andThen <| .andThen
      (.block <| (neverFails_keywordIf _ _).andThen <| (neverFails_abi _).andThen <|
        (neverFails_text _).andThen <| hs.body h.1.of_mem_toList fun item hitem =>
          hs.item .foreign (h.2.of_mem_toList item hitem)) <|
      (neverFails_text _).andThen neverFails_newline
  | useItem =>
    exact (hs.outerAttributes h).andThen <| (neverFails_visibility _).andThen <|
      (neverFails_text _).andThen <| (neverFails_useTree _).andThen <|
      (neverFails_text _).andThen neverFails_newline
  | staticItem =>
    exact (hs.outerAttributes h.1).andThen <| .andThen
      (.block <| (neverFails_visibility _).andThen <| (neverFails_text _).andThen <|
        (neverFails_keywordIf _ _).andThen <| (neverFails_text _).andThen <|
        (hs.type h.2.1).andThen <| (hs.valueAfter h.2.2).andThen (neverFails_text _))
      neverFails_newline
  | constItem =>
    exact (hs.outerAttributes h.1).andThen <| .andThen
      (.block <| (neverFails_visibility _).andThen <| (neverFails_keywordIf _ _).andThen <|
        (neverFails_text _).andThen <| (hs.type h.2.1).andThen <|
        (hs.valueAfter h.2.2).andThen (neverFails_text _))
      neverFails_newline
  | moduleItem _ _ _ _ items =>
    refine (hs.outerAttributes h.1).andThen <| .andThen
      (.block <| (neverFails_visibility _).andThen <| (neverFails_keywordIf _ _).andThen <|
        (neverFails_text _).andThen ?_) <|
      .check (neverFails_text _) fun _ => neverFails_newline
    cases items with
    | absent => exact neverFails_text _
    | present items =>
      have hitems : items.HasLayout := h.2
      exact (neverFails_text _).andThen <| hs.body h.1.of_mem_toList fun item hitem =>
        hs.item .file (hitems.of_mem_toList item hitem)
  | typeItem =>
    refine (hs.outerAttributes h.1).andThen <| .andThen
      (.block <| (neverFails_visibility _).andThen <| (neverFails_keywordIf _ _).andThen <|
        (neverFails_text _).andThen <| (hs.genericParams h.2.1).andThen <| .andThen ?_ ?_)
      neverFails_newline
    · refine neverFails_each fun bound hbound _ _ => ?_
      have hwritten := hs.bound (h.2.2.1.of_mem_toList bound hbound)
      exact .ite ((neverFails_text _).andThen hwritten)
        (neverFails_space.andThen ((neverFails_text _).andThen hwritten))
    · cases place with
      | file =>
        exact (hs.conditions false false h.2.1).andThen <|
          (hs.definition h.2.2.2).andThen (neverFails_text _)
      | foreign => exact neverFails_text _
      | impl | trait => exact (hs.definition h.2.2.2).andThen (hs.conditions false true h.2.1)
  | structItem _ _ _ _ fields =>
    refine (hs.outerAttributes h.1).andThen <| .andThen
      (.block <| (neverFails_visibility _).andThen <| (neverFails_text _).andThen <|
        (hs.genericParams h.2.1).andThen ?_) ?_
    · cases fields with
      | namedFields fields =>
        have hfields : fields.HasLayout := h.2.2
        exact (hs.conditions true false h.2.1).andThen <| (neverFails_text _).andThen <|
          hs.body (List.forall_mem_nil _) fun f hf => hs.fieldLine (hfields.of_mem_toList f hf)
      | unnamedFields fields =>
        have hfields : fields.HasLayout := h.2.2
        exact (hs.unnamedFields hfields).andThen (hs.conditions true true h.2.1)
      | noFields => exact hs.conditions true true h.2.1
    · cases fields with
      | namedFields => exact (neverFails_text _).andThen neverFails_newline
      | unnamedFields | noFields => exact neverFails_newline
  | enumItem =>
    exact (hs.outerAttributes h.1).andThen <| .andThen
      (.block <| (neverFails_visibility _).andThen <| (neverFails_text _).andThen <|
        (hs.genericParams h.2.1).andThen <| (hs.conditions true false h.2.1).andThen <|
        (neverFails_text _).andThen <| hs.body (List.forall_mem_nil _) fun t ht =>
          hs.variantLine (h.2.2.of_mem_toList t ht)) <|
      (neverFails_text _).andThen neverFails_newline
  | unionItem =>
    exact (hs.outerAttributes h.1).andThen <| .andThen
      (.block <| (neverFails_visibility _).andThen <| (neverFails_text _).andThen <|
        (hs.genericParams h.2.1).andThen <| (hs.conditions true false h.2.1).andThen <|
        (neverFails_text _).andThen <| hs.body (List.forall_mem_nil _) fun f hf =>
          hs.fieldLine (h.2.2.of_mem_toList f hf)) <|
      (neverFails_text _).andThen neverFails_newline
  | traitItem =>
    exact (hs.outerAttributes h.1).andThen <| .andThen
      (.block <| (neverFails_visibility _).andThen <| (neverFails_keywordIf _ _).andThen <|
        (neverFails_keywordIf _ _).andThen <| (neverFails_text _).andThen <|
        (hs.genericParams h.2.1).andThen <| .check (neverFails_text _) fun _ =>
        (neverFails_sepText fun t ht => hs.bound (h.2.2.1.of_mem_toList t ht)).andThen <|
        (hs.conditions true false h.2.1).andThen <| (neverFails_text _).andThen <|
        hs.body h.1.of_mem_toList fun item hitem =>
          hs.item .trait (h.2.2.2.of_mem_toList item hitem)) <|
      (neverFails_text _).andThen neverFails_newline
  | traitAliasItem =>
    refine (hs.outerAttributes h.1).andThen <| .andThen
      (.block <| (neverFails_visibility _).andThen <| (neverFails_text _).andThen <|
        (hs.genericParams h.2.1).andThen <| (neverFails_text _).andThen <|
        neverFails_goOn.andThen <| .andThen ?_ (hs.conditions true true h.2.1))
      neverFails_newline
    exact neverFails_each fun bound hbound _ _ =>
      .ite (neverFails_space.andThen <| (neverFails_text _).andThen <|
        hs.bound (h.2.2.of_mem_toList bound hbound)) (hs.bound (h.2.2.of_mem_toList bound hbound))
  | implItem _ _ _ _ _ trait =>
    refine (hs.outerAttributes h.1).andThen <| .andThen
      (.block <| .andThen (.flow <| .andThen
          (.block <| (neverFails_keywordIf _ _).andThen <| (neverFails_keywordIf _ _).andThen <|
            (neverFails_text _).andThen (hs.genericParams h.2.1)) <|
          (neverFails_text _).andThen ?_) <|
        (hs.conditions true false h.2.1).andThen <| (neverFails_text _).andThen <|
        hs.body h.1.of_mem_toList fun item hitem =>
          hs.item .impl (h.2.2.2.2.of_mem_toList item hitem)) <|
      (neverFails_text _).andThen neverFails_newline
    cases trait with
    | absent => exact hs.type h.2.2.2.1
    | present =>
      exact .check (neverFails_text _) fun _ => (hs.path .type h.2.2.1).andThen <|
        neverFails_space.andThen <| (neverFails_text _).andThen (hs.type h.2.2.2.1)
  | macroItem =>
    exact (hs.outerAttributes h.1).andThen <| (neverFails_macroCall _ h.2).andThen
      neverFails_newline
  | rawItem => exact h.elim

end Scribe.Writes

/-! ## Files -/

/-- Writers that write the parts of a tree write the tree. -/
theorem Scribe.Writes.around {s : Scribe} (hs : s.Writes) : s.around.Writes where
  type h := hs.writeType h
  bound h := hs.writeBound h
  args place h := hs.writeArgs place h
  pat h := hs.writePat h
  expr lineStart h := hs.writeExpr lineStart h
  link lineStart h := hs.writeLink lineStart h
  stmt isLast h := hs.writeStmt isLast h
  item place h := hs.writeItem place h

/-- The writers of any depth write every tree that has a layout. -/
theorem writes_atDepth (depth : Nat) : (Scribe.atDepth depth).Writes := by
  induction depth with
  | zero => exact writes_exhausted
  | succ depth ih => exact ih.around

/-- A file all of whose parts can be written has a text. -/
theorem exists_fileText_eq_ok {file : Syntax.File} (hattrs : ∀ a ∈ file.attrs, a.HasLayout)
    (hitems : ∀ item ∈ file.items, item.HasLayout) : ∃ text, fileText file = .ok text := by
  have hs := writes_atDepth (2 * file.size + 2)
  have hdraft : NeverFails (fileDraft file) :=
    .block <| (hs.innerAttributes hattrs).andThen <|
      neverFails_all fun item hitem => hs.item .file (hitems item hitem)
  obtain ⟨⟨_, marks⟩, hmarks⟩ := hdraft []
  exact ⟨_, bind_eq_ok_iff.2 ⟨_, hmarks, rfl⟩⟩

end ForeignWrap.Layout
