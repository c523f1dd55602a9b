import ForeignWrap.Layout.Pattern
import ForeignWrap.Proofs.Layout.Scribe

/-!
# Types and patterns that have a layout

Writers of paths, bounds, types and patterns never fail where those that they call do not.

## Main statements

* `ForeignWrap.Layout.Scribe.Writes.writeType`: a type is written.
* `ForeignWrap.Layout.Scribe.Writes.writePat`: a pattern is written.
-/

namespace ForeignWrap.Layout

open Syntax (Pat Ty)

theorem neverFails_keywordIf (isThere : Bool) (keyword : String) :
    NeverFails (keywordIf isThere keyword) :=
  .ite (neverFails_text _) (neverFails_pure _)

theorem neverFails_abi (convention : Option Syntax.Abi) : NeverFails (abi convention) := by
  cases convention with
  | none => exact neverFails_pure _
  | some convention =>
    obtain ⟨_ | name⟩ := convention
    · exact (neverFails_text _).andThen (neverFails_pure _)
    · exact (neverFails_text _).andThen ((neverFails_text _).andThen (neverFails_text _))

namespace Scribe.Writes

variable {s : Scribe} (hs : s.Writes)
include hs

/-! ## Paths -/

theorem boundName {name : String} {args : Syntax.Tree (.maybe (.many .genericArg))}
    (h : args.HasLayout) : NeverFails (s.boundName name args) := by
  refine (neverFails_text _).andThen ?_
  cases args with
  | absent => exact neverFails_pure _
  | present args => exact hs.args .type h.of_mem_toList

theorem boundsAfterColon {bounds : Syntax.Tree (.many .bound)} (h : bounds.HasLayout) :
    NeverFails (s.boundsAfterColon bounds.toList) :=
  neverFails_each fun bound hbound _ _ =>
    have hwritten := hs.bound (h.of_mem_toList bound hbound)
    .ite ((neverFails_text _).andThen hwritten)
      (neverFails_space.andThen ((neverFails_text _).andThen hwritten))

theorem genericArg {arg : Syntax.Tree .genericArg} (h : arg.HasLayout) :
    NeverFails (s.genericArg arg) := by
  cases arg with
  | lifetimeArg => exact neverFails_text _
  | typeArg => exact hs.type h
  | valueArg => exact hs.expr false h
  | typeBinding => exact (hs.boundName h.1).andThen ((neverFails_text _).andThen (hs.type h.2))
  | valueBinding =>
    exact (hs.boundName h.1).andThen ((neverFails_text _).andThen (hs.expr false h.2))
  | boundedArg => exact (hs.boundName h.1).andThen (hs.boundsAfterColon h.2).flow

theorem writeArgs (place : PathPlace) {args : List (Syntax.Tree .genericArg)}
    (h : ∀ t ∈ args, t.HasLayout) : NeverFails (s.writeArgs place args) := by
  have hmem : ∀ t ∈ args.filter isLifetimeArg ++ args.filter (!isLifetimeArg ·), t.HasLayout :=
    List.forall_mem_append.2 ⟨fun t ht => h t (List.mem_of_mem_filter ht),
      fun t ht => h t (List.mem_of_mem_filter ht)⟩
  exact .ite (.check (neverFails_text _) fun _ => (neverFails_text _).andThen <|
    (neverFails_commaBlock fun t ht => hs.genericArg (hmem t ht)).andThen (neverFails_text _))
    (neverFails_pure _)

theorem arrow {output : Syntax.Tree (.maybe .type)} (h : output.HasLayout) :
    NeverFails (s.arrow output) := by
  cases output with
  | absent => exact neverFails_pure _
  | present => exact (neverFails_text _).andThen (hs.type h)

theorem segment (place : PathPlace) {part : Syntax.Tree .segment} (h : part.HasLayout) :
    NeverFails (s.segment place part) := by
  cases part with
  | segment => exact neverFails_text _
  | segmentOf => exact (neverFails_text _).andThen (hs.writeArgs place h.of_mem_toList)
  | segmentCall =>
    have hinputs := neverFails_each fun t ht _ isLast =>
      (hs.type (h.1.of_mem_toList t ht)).andThen (neverFails_comma isLast)
    exact (neverFails_text _).andThen <| .block <| (neverFails_text _).andThen <|
      neverFails_mayEnd.andThen <| hinputs.andThen <| neverFails_outdent.andThen <|
      (neverFails_text _).andThen (hs.arrow h.2)

theorem segments (place : PathPlace) (rooted : Bool) {parts : List (Syntax.Tree .segment)}
    (h : ∀ part ∈ parts, part.HasLayout) : NeverFails (s.segments place rooted parts) :=
  neverFails_each fun part hpart _ _ =>
    .check (neverFails_text _) fun _ => hs.segment place (h part hpart)

theorem path (place : PathPlace) {p : Syntax.Tree .path} (h : p.HasLayout) :
    NeverFails (s.path place p) := by
  cases p with
  | path self position rooted parts =>
    have hparts := h.2.of_mem_toList
    cases self with
    | absent => exact hs.segments place rooted hparts
    | present self =>
      have htrait := hs.segments .type rooted fun part hpart =>
        hparts part (List.mem_of_mem_take (i := position) hpart)
      have hrest := hs.segments place true fun part hpart =>
        hparts part (List.mem_of_mem_drop (i := position) hpart)
      exact (neverFails_text _).andThen <| (hs.type h.1).andThen <|
        .check ((neverFails_text _).andThen htrait) fun _ => (neverFails_text _).andThen hrest

theorem unqualifiedPath (place : PathPlace) {p : Syntax.Tree .path} (h : p.HasLayout) :
    NeverFails (s.unqualifiedPath place p) := by
  cases p with
  | path => exact hs.segments place _ h.2.of_mem_toList

/-! ## Types -/

theorem genericParam {param : Syntax.Tree .genericParam} (h : param.HasLayout) :
    NeverFails (s.genericParam param) := by
  cases param with
  | lifetimeParam =>
    exact (hs.outerAttributes h).andThen <| (neverFails_text _).andThen <|
      .ite ((neverFails_text _).andThen (neverFails_sepText fun _ _ => neverFails_text _))
        (neverFails_pure _)
  | typeParam _ _ _ byDefault =>
    refine (hs.outerAttributes h.1).andThen <| (neverFails_text _).andThen <| .flow <|
      (hs.boundsAfterColon h.2.1).andThen ?_
    cases byDefault with
    | absent => exact neverFails_pure _
    | present => exact neverFails_space.andThen ((neverFails_text _).andThen (hs.type h.2.2))
  | valueParam _ _ _ byDefault =>
    refine (hs.outerAttributes h.1).andThen <| (neverFails_text _).andThen <|
      (hs.type h.2.1).andThen ?_
    cases byDefault with
    | absent => exact neverFails_pure _
    | present => exact (neverFails_text _).andThen (hs.expr false h.2.2)

theorem forParams {params : Syntax.Tree (.maybe (.many .genericParam))} (h : params.HasLayout) :
    NeverFails (s.forParams params) := by
  cases params with
  | absent => exact neverFails_pure _
  | present params =>
    exact (neverFails_text _).andThen <| .andThen
      (neverFails_sepText fun t ht => hs.genericParam (h.of_mem_toList t ht)) (neverFails_text _)

theorem writeBound {bound : Syntax.Tree .bound} (h : bound.HasLayout) :
    NeverFails (s.writeBound bound) := by
  cases bound with
  | traitBound =>
    exact .check (neverFails_text _) fun _ => .check (neverFails_text _) fun _ =>
      (hs.forParams h.1).andThen <| (hs.path .type h.2).andThen <|
      .ite (neverFails_text _) (neverFails_pure _)
  | lifetimeBound => exact neverFails_text _
  | captureBound =>
    exact (neverFails_text _).andThen <|
      .andThen (neverFails_sepText fun _ _ => neverFails_text _) (neverFails_text _)
  | rawBound => exact h.elim

theorem typeArg {arg : Syntax.Tree .typeArg} (h : arg.HasLayout) : NeverFails (s.typeArg arg) := by
  cases arg with
  | namedTypeArg _ name =>
    refine (hs.outerAttributes h.1).andThen ?_
    cases name with
    | none => exact hs.type h.2
    | some => exact (neverFails_text _).andThen (hs.type h.2)
  | variadicTypeArg _ name =>
    refine (hs.outerAttributes h).andThen ?_
    cases name with
    | none => exact neverFails_text _
    | some => exact (neverFails_text _).andThen (neverFails_text _)

theorem writeType {t : Ty} (h : t.HasLayout) : NeverFails (s.writeType t) := by
  cases t with
  | pathType => exact hs.path .type h
  | referenceType lifetime mutable elem =>
    have hend := (neverFails_keywordIf mutable "mut").andThen (hs.type (t := elem) h)
    refine (neverFails_text _).andThen ?_
    cases lifetime with
    | none => exact hend
    | some => exact (neverFails_text _).andThen hend
  | pointerType => exact (neverFails_text _).andThen (hs.type h)
  | sliceType elem | parenType elem =>
    exact (neverFails_text _).andThen ((hs.type (t := elem) h).andThen (neverFails_text _))
  | arrayType =>
    exact (neverFails_text _).andThen <| (hs.type h.1).andThen <| (neverFails_text _).andThen <|
      (hs.expr false h.2).andThen (neverFails_text _)
  | tupleType elems =>
    have helems := h.of_mem_toList
    refine (neverFails_text _).andThen ?_
    split
    · rename_i elem hlist
      have helem := hs.type (helems elem (hlist ▸ List.mem_singleton_self elem))
      exact .andThen (.block <| neverFails_mayEnd.andThen <| helem.andThen <|
        (neverFails_text _).andThen <| neverFails_mayEnd.andThen neverFails_outdent)
        (neverFails_text _)
    · exact (neverFails_commaBlock fun t ht => hs.type (helems t ht)).andThen (neverFails_text _)
  | neverType | inferType => exact neverFails_text _
  | implType | objectType =>
    exact (neverFails_text _).andThen
      (neverFails_sepText fun t ht => hs.bound (h.of_mem_toList t ht))
  | functionType =>
    refine (hs.forParams h.1).andThen <| (neverFails_keywordIf _ _).andThen <|
      (neverFails_abi _).andThen <| (neverFails_text _).andThen <|
      .andThen (.block <| neverFails_mayEnd.andThen <| .andThen ?_ neverFails_outdent) <|
      (neverFails_text _).andThen (hs.arrow h.2.2)
    exact neverFails_each fun arg harg _ isLast =>
      (hs.typeArg (h.2.1.of_mem_toList arg harg)).andThen
      (.ite neverFails_mayEnd (neverFails_comma isLast))
  | macroType => exact neverFails_macroCall false (by rintro - ⟨⟩)
  | rawType => exact h.elim

/-! ## Patterns -/

theorem fieldPat {field : Syntax.Tree .fieldPat} (h : field.HasLayout) :
    NeverFails (s.fieldPat field) := by
  cases field with
  | fieldPat =>
    exact (hs.outerAttributes h.1).andThen <| .check (neverFails_text _) fun _ => hs.pat h.2

theorem writePat {t : Pat} (h : t.HasLayout) : NeverFails (s.writePat t) := by
  cases t with
  | identPat _ _ _ sub =>
    refine (neverFails_keywordIf _ _).andThen <| (neverFails_keywordIf _ _).andThen <|
      (neverFails_text _).andThen ?_
    cases sub with
    | absent => exact neverFails_pure _
    | present => exact (neverFails_text _).andThen (hs.pat h)
  | pathPat => exact hs.path .value h
  | callPat =>
    exact (hs.unqualifiedPath .value h.1).andThen <| (neverFails_text _).andThen <|
      .andThen (neverFails_commaBlock fun t ht => hs.pat (h.2.of_mem_toList t ht))
        (neverFails_text _)
  | structPat _ _ rest =>
    have hfields {more : Bool} := neverFails_each fun field hfield _ isLast =>
      (hs.fieldPat (h.2.1.of_mem_toList field hfield)).andThen
        (neverFails_commaBeforeBrace (isLast && more))
    refine .andThen (.block <| (hs.unqualifiedPath .value h.1).andThen <|
      (neverFails_text _).andThen <| (neverFails_gap _).andThen <| hfields.andThen ?_)
      (neverFails_text _)
    cases rest with
    | absent => exact neverFails_outdent
    | present =>
      exact (hs.outerAttributes h.2.2).andThen <| (neverFails_text _).andThen <|
        neverFails_space.andThen neverFails_outdent
  | tuplePat elems =>
    have helems := h.of_mem_toList
    refine (neverFails_text _).andThen ?_
    split
    · rename_i elem hlist
      have helem := hs.pat (helems elem (hlist ▸ List.mem_singleton_self elem))
      exact .andThen (.block <| neverFails_mayEnd.andThen <| helem.andThen <|
        .check (neverFails_text _) fun _ => neverFails_mayEnd.andThen neverFails_outdent)
        (neverFails_text _)
    · exact (neverFails_commaBlock fun t ht => hs.pat (helems t ht)).andThen (neverFails_text _)
  | parenPat elem =>
    exact (neverFails_text _).andThen ((hs.pat (t := elem) h).andThen (neverFails_text _))
  | slicePat =>
    have helems := neverFails_each fun t ht _ isLast =>
      (hs.pat (h.of_mem_toList t ht)).andThen (neverFails_comma isLast)
    exact (neverFails_text _).andThen (helems.andThen (neverFails_text _))
  | referencePat =>
    exact (neverFails_text _).andThen ((neverFails_keywordIf _ _).andThen (hs.pat h))
  | exprPat => exact hs.expr false h
  | restPat | wildPat => exact neverFails_text _
  | orPat =>
    exact .box <| neverFails_each fun t ht _ _ =>
      .check (neverFails_space.andThen (neverFails_text _)) fun _ => hs.pat (h.of_mem_toList t ht)
  | macroPat => exact neverFails_macroCall false (by rintro - ⟨⟩)
  | typedPat =>
    exact (hs.outerAttributes h.1).andThen <| (hs.pat h.2.1).andThen <|
      (neverFails_text _).andThen (hs.type h.2.2)
  | attributedPat =>
    refine (hs.outerAttributes h.1).andThen ?_
    split
    · exact (neverFails_text _).andThen ((hs.expr false h.2).andThen (neverFails_text _))
    · exact hs.pat h.2
  | rawPat => exact h.elim

end Scribe.Writes

end ForeignWrap.Layout
