import ForeignWrap.Proofs.Layout.Draft

/-!
# Trees that have a layout

A tree is written if all its parts can be: only what is kept as tokens, and macros whose rules are
not like rules, have no layout. Attributes are written if the values that they hold are.

## Main definitions

* `ForeignWrap.Syntax.Tree.HasLayout`: a tree all of whose parts can be written.
* `ForeignWrap.Layout.Scribe.Writes`: writers that write all such trees.
-/

namespace ForeignWrap

namespace Syntax.Tree

/-- All parts of a tree can be written: none is kept as its tokens, and macros that are defined by
rules have rules. -/
def HasLayout : {c : SyntaxClass} → Tree c → Prop
  | _, rawBound _ | _, rawType _ | _, rawPat _ | _, rawExpr _ | _, rawItem _ => False
  | _, nil | _, absent | _, segment _ | _, lifetimeArg _ | _, lifetimeBound _ | _, captureBound _
  | _, neverType | _, inferType | _, pathAttribute .. | _, listAttribute .. | _, restPat
  | _, wildPat | _, literal _ | _, continueTo _ | _, infer | _, emptyStmt | _, lifetimeCondition ..
  | _, noFields | _, macroType _ | _, macroPat _ | _, macroExpr _ => True
  | _, present t | _, segmentOf _ _ t | _, typeArg t | _, valueArg t | _, pathType t
  | _, referenceType _ _ t | _, pointerType _ t | _, sliceType t | _, tupleType t | _, parenType t
  | _, implType t | _, objectType _ t | _, variadicTypeArg t _ | _, valueAttribute _ _ t
  | _, identPat _ _ _ t | _, pathPat t | _, tuplePat t _ | _, parenPat t | _, slicePat t
  | _, referencePat _ t | _, exprPat t | _, orPat _ t | _, pathExpr t | _, unary _ t
  | _, reference _ t | _, rawAddress _ t | _, question t | _, await t | _, field t _ | _, paren t
  | _, tuple t | _, array t | _, blockExpr _ t | _, unsafeBlock t | _, asyncBlock _ t
  | _, constBlock t | _, tryBlock t | _, loop _ t | _, breakTo _ t | _, returnWith t
  | _, yieldWith t | _, itemStmt t | _, exprStmt t _ | _, macroStmt t _ _ | _, lifetimeParam t _ _
  | _, namedFields t | _, unnamedFields t | _, externCrateItem t _ _ _ | _, useItem t _ _ _ =>
    t.HasLayout
  | _, cons t u | _, path t _ _ u | _, segmentCall _ t u | _, typeBinding _ t u
  | _, valueBinding _ t u | _, boundedArg _ t u | _, traitBound _ _ t u | _, arrayType t u
  | _, namedTypeArg t _ u | _, callPat t u | _, attributedPat t u | _, fieldPat t _ _ u
  | _, attributed t u | _, binary _ t u | _, assign t u | _, cast t u | _, call t u | _, index t u
  | _, range t _ u | _, repeated t u | _, whileLoop _ t u | _, letIn t u | _, fieldValue t _ u
  | _, block t u | _, generics t u | _, receiver t _ _ u | _, variadicParam t u | _, fieldOf t _ _ u
  | _, externItem t _ _ u | _, moduleItem t _ _ _ u => t.HasLayout ∧ u.HasLayout
  | _, functionType t _ _ u v | _, structPat t u v | _, typedPat t u v | _, methodCall t _ u v
  | _, structExpr t u _ v | _, ifThen t u v | _, forLoop _ t u v | _, matchOn t u v
  | _, typeParam t _ u v | _, valueParam t _ u v | _, typeCondition t u v | _, typedParam t u v
  | _, signature _ _ _ _ _ t u v | _, variant t _ u v | _, fnItem t _ _ u v
  | _, staticItem t _ _ _ u v | _, constItem t _ _ _ u v | _, structItem t _ _ u v
  | _, enumItem t _ _ u v | _, unionItem t _ _ u v | _, traitAliasItem t _ _ u v =>
    t.HasLayout ∧ u.HasLayout ∧ v.HasLayout
  | _, closure t _ _ _ _ u v w | _, arm t u v w | _, letStmt t u v w | _, typeItem t _ _ _ u v w
  | _, traitItem t _ _ _ _ u v w => t.HasLayout ∧ u.HasLayout ∧ v.HasLayout ∧ w.HasLayout
  | _, implItem t _ _ u _ v w x =>
    t.HasLayout ∧ u.HasLayout ∧ v.HasLayout ∧ w.HasLayout ∧ x.HasLayout
  | _, macroItem t name rules _ => t.HasLayout ∧ Layout.HasRules rules name

theorem HasLayout.of_mem_toList {c : SyntaxClass} : {trees : Tree (.many c)} → trees.HasLayout →
    ∀ t ∈ trees.toList, t.HasLayout
  | .nil, _, _, ht => absurd ht List.not_mem_nil
  | .cons _ _, h, t, ht => by
    obtain rfl | ht := List.mem_cons.1 ht
    · exact h.1
    · exact h.2.of_mem_toList t ht

theorem hasLayout_ofList {c : SyntaxClass} {trees : List (Tree c)}
    (h : ∀ t ∈ trees, t.HasLayout) : (ofList trees).HasLayout := by
  induction trees with
  | nil => trivial
  | cons head tail ih =>
    obtain ⟨hhead, htail⟩ := List.forall_mem_cons.1 h
    exact ⟨hhead, ih htail⟩

end Syntax.Tree

namespace Layout

open Code (Delimiter Token)
open Syntax (Attribute Item ItemPlace Pat Stmt Ty)

/-- The writers of a scribe write every tree that has a layout. -/
structure Scribe.Writes (s : Scribe) : Prop where
  type {t : Ty} : t.HasLayout → NeverFails (s.type t)
  bound {t : Syntax.Tree .bound} : t.HasLayout → NeverFails (s.bound t)
  args {args : List (Syntax.Tree .genericArg)} (place : PathPlace) :
    (∀ t ∈ args, t.HasLayout) → NeverFails (s.args place args)
  pat {t : Pat} : t.HasLayout → NeverFails (s.pat t)
  expr {t : Syntax.Expr} (lineStart : Bool) : t.HasLayout → NeverFails (s.expr lineStart t)
  link {t : Syntax.Expr} (lineStart : Bool) : t.HasLayout → NeverFails (s.link lineStart t)
  stmt {t : Stmt} (isLast : Bool) : t.HasLayout → NeverFails (s.stmt isLast t)
  item {t : Item} (place : ItemPlace) : t.HasLayout → NeverFails (s.item place t)

theorem writes_exhausted : Scribe.exhausted.Writes where
  type _ := neverFails_pure _
  bound _ := neverFails_pure _
  args _ _ := neverFails_pure _
  pat _ := neverFails_pure _
  expr _ _ := neverFails_pure _
  link _ _ := neverFails_pure _
  stmt _ _ := neverFails_pure _
  item _ _ := neverFails_pure _

/-! ## Attributes -/

mutual

theorem neverFails_attributeToken (context : AttributeContext) (isLast : Bool) :
    (t : Token) → NeverFails (attributeToken context isLast t)
  | .word _ | .literal _ => by
    rw [attributeToken]
    exact .check neverFails_space fun _ => (neverFails_text _).andThen (neverFails_pure _)
  | .sign _ _ => by
    rw [attributeToken]
    refine .check (neverFails_text _) fun _ => .ite ?_ ?_
    · exact (neverFails_comma _).andThen (neverFails_pure _)
    · exact (neverFails_text _).andThen <| .check (neverFails_text _) fun _ =>
        .check neverFails_space fun _ => neverFails_pure _
  | .group _ content => by
    have hcontent := neverFails_attributeTokens .sign content
    have hend {d : Delimiter} : NeverFails (do
        text (closing d)
        return AttributeContext.sign) := (neverFails_text _).andThen (neverFails_pure _)
    rw [attributeToken]
    refine (neverFails_text _).andThen (.ite ?_ (hcontent.bind fun _ => hend))
    exact (neverFails_modify _).andThen <| neverFails_mayEnd.andThen <| hcontent.bind fun _ =>
      .check neverFails_mayEnd fun _ => neverFails_outdent.andThen <|
      (neverFails_modify _).bind fun _ => hend

theorem neverFails_attributeTokens (context : AttributeContext) :
    (tokens : List Token) → NeverFails (attributeTokens context tokens)
  | [] => by
    rw [attributeTokens]
    exact neverFails_pure _
  | token :: rest => by
    rw [attributeTokens]
    exact (neverFails_attributeToken context rest.isEmpty token).bind fun context =>
      neverFails_attributeTokens context rest

end

namespace Scribe.Writes

variable {s : Scribe} (hs : s.Writes)
include hs

theorem attr {a : Attribute} (h : a.HasLayout) : NeverFails (s.attr a) := by
  have hend := (neverFails_text "]").andThen neverFails_space
  unfold Scribe.attr
  split
  · exact (neverFails_text _).andThen neverFails_newline
  · refine (neverFails_text _).andThen ?_
    cases a with
    | pathAttribute => exact (neverFails_text _).andThen hend
    | listAttribute =>
      exact (neverFails_text _).andThen <| (neverFails_attributeToken _ _ _).bind fun _ => hend
    | valueAttribute =>
      exact (neverFails_text _).andThen <| (neverFails_text _).andThen <|
        (hs.expr false h).andThen hend

theorem outerAttributes {attrs : Syntax.Tree (.many .attribute)} (h : attrs.HasLayout) :
    NeverFails (s.outerAttributes attrs.toList) :=
  neverFails_all fun a ha => hs.attr (h.of_mem_toList a (List.mem_of_mem_filter ha))

theorem innerAttributes {attrs : List Attribute} (h : ∀ a ∈ attrs, a.HasLayout) :
    NeverFails (s.innerAttributes attrs) :=
  neverFails_all fun a ha => hs.attr (h a (List.mem_of_mem_filter ha))

end Scribe.Writes

end Layout

end ForeignWrap
