import ForeignWrap.Layout.Expression
import ForeignWrap.Proofs.Layout.Type

/-!
# Expressions that have a layout

Writers of expressions, blocks and chains never fail where those that they call do not. Some
expressions are rewritten before they are written, which takes nothing from their layout.

## Main statements

* `ForeignWrap.Layout.Scribe.Writes.writeExpr`: an expression is written.
* `ForeignWrap.Layout.Scribe.Writes.writeLink`: so is one inside a chain.
-/

namespace ForeignWrap.Layout

open Syntax (BinaryOp SyntaxClass)

/-! ## Rewritten expressions -/

theorem hasLayout_beforeAngle {k : SyntaxClass} {t : Syntax.Tree k} (h : t.HasLayout) :
    (beforeAngle t).HasLayout := by
  fun_induction beforeAngle t with
  | case1 => exact h
  | case2 => exact h
  | case3 _ _ _ ih => exact ⟨h.1, ih h.2⟩
  | case4 => exact h

theorem hasLayout_leftSide (operator : BinaryOp) {left : Syntax.Expr} (h : left.HasLayout) :
    (leftSide operator left).HasLayout := by
  unfold leftSide
  split
  · exact hasLayout_beforeAngle h
  · exact h

theorem hasLayout_innermost {t : Syntax.Expr} (h : t.HasLayout) : (innermost t).HasLayout := by
  generalize hsize : sizeOf t = size
  induction size using Nat.strongRecOn generalizing t with
  | ind size ih =>
    cases t with
    | blockExpr label body =>
      match label, body, h with
      | some _, _, h | none, .block (.cons ..) _, h | none, .block .nil .nil, h => exact h
      | none, .block .nil (.cons stmt rest), h =>
        cases stmt with
        | exprStmt value semicolon =>
          match semicolon, rest, h with
          | true, _, h | false, .cons .., h => exact h
          | false, .nil, h =>
            have hvalue : value.HasLayout := h.2.1
            have hlt : sizeOf value < size := by
              rw [← hsize]
              simp +arith
            have hinner := ih _ hlt hvalue rfl
            exact hinner
        | _ => exact h
    | _ => exact h

theorem neverFails_gapAfter (lineStart : Bool) (base : Syntax.Expr) :
    NeverFails (Scribe.gapAfter lineStart base) :=
  .ite (neverFails_pure _) (neverFails_modify _)

theorem neverFails_label (name : Option String) : NeverFails (Scribe.label name) := by
  cases name with
  | none => exact neverFails_pure _
  | some => exact neverFails_text _

namespace Scribe.Writes

variable {s : Scribe} (hs : s.Writes)
include hs

/-! ## Blocks -/

theorem stmts {body : Syntax.Tree (.many .stmt)} (h : body.HasLayout) :
    NeverFails (s.stmts body.toList) :=
  neverFails_each fun stmt hstmt _ isLast => hs.stmt isLast (h.of_mem_toList stmt hstmt)

theorem smallBlock {body : Syntax.Tree .block} (h : body.HasLayout) :
    NeverFails (s.smallBlock body) := by
  cases body with
  | block inner body =>
    have hend := neverFails_outdent.andThen (neverFails_text "\x7d")
    refine (neverFails_text _).andThen (.ite ?_ (neverFails_text _))
    refine neverFails_space.andThen <| (hs.innerAttributes h.1.of_mem_toList).andThen ?_
    split
    · rename_i expr hlist
      have hexpr := h.2.of_mem_toList (.exprStmt expr false) (hlist ▸ List.mem_singleton_self _)
      exact (hs.expr true (t := expr) hexpr).flow.andThen (neverFails_space.andThen hend)
    · exact (hs.stmts h.2).andThen hend

theorem blockBody {body : Syntax.Tree .block} (h : body.HasLayout) :
    NeverFails (s.blockBody body) := by
  cases body with
  | block =>
    exact .andThen (.block <| (neverFails_gap _).andThen <|
      (hs.innerAttributes h.1.of_mem_toList).andThen <| (hs.stmts h.2).andThen neverFails_outdent)
      (neverFails_text _)

theorem head {t : Syntax.Expr} (h : t.HasLayout) : NeverFails (s.head t) :=
  .block <| (hs.expr false h).andThen (.ite neverFails_space (neverFails_text _))

/-! ## Lists of expressions -/

theorem callArgs {args : List Syntax.Expr} (h : ∀ arg ∈ args, arg.HasLayout) :
    NeverFails (s.callArgs args) := by
  have hargs {indent : Int} : NeverFails (commaBlock indent args (s.expr false)) :=
    neverFails_commaBlock fun arg harg => hs.expr false (h arg harg)
  unfold Scribe.callArgs
  split
  · rename_i arg
    exact .ite (hs.expr false (h arg (List.mem_singleton_self arg))) hargs
  · exact hargs

theorem tupleElems {elems : List Syntax.Expr} (h : ∀ elem ∈ elems, elem.HasLayout) :
    NeverFails (s.tupleElems elems) := by
  unfold Scribe.tupleElems
  split
  · rename_i elem
    exact .block <| neverFails_mayEnd.andThen <|
      (hs.expr false (h elem (List.mem_singleton_self elem))).andThen <|
      (neverFails_text _).andThen <| neverFails_mayEnd.andThen neverFails_outdent
  · exact neverFails_commaBlock fun elem helem => hs.expr false (h elem helem)

theorem arrayElems {elems : List Syntax.Expr} (h : ∀ elem ∈ elems, elem.HasLayout) :
    NeverFails (s.arrayElems elems) := by
  refine .ite (neverFails_commaBlock fun elem helem => hs.expr false (h elem helem)) ?_
  refine .block <| neverFails_mayEnd.andThen <| .andThen (.flow ?_) <|
    (neverFails_comma true).andThen neverFails_outdent
  exact neverFails_each fun elem helem _ _ => (hs.expr false (h elem helem)).andThen <|
    .ite ((neverFails_text _).andThen neverFails_space) (neverFails_pure _)

theorem fieldValue {field : Syntax.Tree .fieldValue} (h : field.HasLayout) :
    NeverFails (s.fieldValue field) := by
  cases field with
  | fieldValue _ _ value =>
    refine (hs.outerAttributes h.1).andThen ((neverFails_text _).andThen ?_)
    cases value with
    | absent => exact neverFails_pure _
    | present => exact (neverFails_text _).andThen (hs.expr false h.2).flow

/-! ## Chains -/

theorem method (lineStart isFirst : Bool) {receiver : Syntax.Expr} {name : String}
    {turbofish : Syntax.Tree (.maybe (.many .genericArg))} {args : Syntax.Tree (.many .expr)}
    (hreceiver : receiver.HasLayout) (hturbofish : turbofish.HasLayout) (hargs : args.HasLayout) :
    NeverFails (s.method lineStart isFirst receiver name turbofish args.toList) := by
  have hend {indent : Int} : NeverFails (block indent do
      text "("
      s.callArgs args.toList
      text ")") :=
    .block <| (neverFails_text _).andThen <| (hs.callArgs hargs.of_mem_toList).andThen <|
      neverFails_text _
  refine (hs.link lineStart hreceiver).andThen <|
    (neverFails_gapAfter lineStart receiver).andThen <|
    (neverFails_text _).andThen <| (neverFails_text _).andThen ?_
  cases turbofish with
  | absent => exact hend
  | present => exact (hs.args .value hturbofish.of_mem_toList).andThen hend

theorem writeLink (lineStart : Bool) {t : Syntax.Expr} (h : t.HasLayout) :
    NeverFails (s.writeLink lineStart t) := by
  have hbase (base : Syntax.Expr) {after : String} (hbase : base.HasLayout) : NeverFails (do
      s.link lineStart base
      Scribe.gapAfter lineStart base
      text after) :=
    (hs.link lineStart hbase).andThen
      ((neverFails_gapAfter lineStart base).andThen (neverFails_text _))
  cases t with
  | await base | field base => exact hbase base h
  | call =>
    exact (hs.link false h.1).andThen <| (neverFails_text _).andThen <|
      (hs.callArgs h.2.of_mem_toList).andThen (neverFails_text _)
  | index =>
    exact (hs.link lineStart h.1).andThen <| (neverFails_text _).andThen <|
      (hs.expr false h.2).andThen (neverFails_text _)
  | methodCall => exact hs.method lineStart false h.1 h.2.1 h.2.2
  | question expr => exact (hs.link lineStart (t := expr) h).andThen (neverFails_text _)
  | _ => exact .block (hs.expr false h)

/-! ## Closures -/

theorem bracedBody {body : Syntax.Expr} (h : body.HasLayout) : NeverFails (s.bracedBody body) :=
  .block <| (neverFails_gap _).andThen <| (hs.expr false h).andThen (neverFails_gap _)

theorem closure {typeParams : Syntax.Tree (.maybe (.many .genericParam))}
    {isConst isStatic isAsync capture : Bool} {inputs : Syntax.Tree (.many .pat)}
    {output : Syntax.Tree (.maybe .type)} {body : Syntax.Expr} (htypeParams : typeParams.HasLayout)
    (hinputs : inputs.HasLayout) (houtput : output.HasLayout) (hbody : body.HasLayout) :
    NeverFails
      (s.closure typeParams isConst isStatic isAsync capture inputs.toList output body) := by
  refine .flow <| (hs.forParams htypeParams).andThen <| (neverFails_keywordIf _ _).andThen <|
    (neverFails_keywordIf _ _).andThen <| (neverFails_keywordIf _ _).andThen <|
    (neverFails_keywordIf _ _).andThen ?_
  extract_lets params
  have hparams : NeverFails params :=
    (neverFails_text _).andThen <| neverFails_each fun t ht _ _ =>
      .check neverFails_mayEnd fun _ => (hs.pat (hinputs.of_mem_toList t ht)).andThen <|
        .ite ((neverFails_text _).andThen neverFails_space) (neverFails_pure _)
  cases output with
  | absent =>
    refine .andThen (.block <| hparams.andThen <| (neverFails_text _).andThen <|
      neverFails_space.andThen neverFails_outdent) <| neverFails_goOn.andThen ?_
    exact .ite (hs.expr false hbody) (hs.bracedBody hbody)
  | present =>
    have hbar := neverFails_text "|"
    refine .andThen (.block <| hparams.andThen <| .ite ?_ hbar) <| (neverFails_text _).andThen <|
      (hs.type houtput).andThen <| (neverFails_text _).andThen <|
      neverFails_goOn.andThen (hs.expr false hbody)
    exact (neverFails_comma true).andThen (neverFails_outdent.andThen hbar)

/-! ## Conditions, loops and matches -/

theorem branches {k : SyntaxClass} {t : Syntax.Tree k} (h : t.HasLayout) :
    NeverFails (s.branches t) := by
  fun_induction Scribe.branches s t with
  | case1 _ _ ih => exact ih h
  | case2 cond branch next ih =>
    exact (neverFails_text _).andThen <| (hs.head h.1).block.andThen <|
      (hs.smallBlock h.2.1).andThen (ih h.2.2)
  | case3 => exact (neverFails_text _).andThen (hs.smallBlock h)
  | case4 => exact neverFails_pure _

theorem ifThen {cond : Syntax.Expr} {branch : Syntax.Tree .block}
    {otherwise : Syntax.Tree (.maybe .expr)} (hcond : cond.HasLayout) (hbranch : branch.HasLayout)
    (hotherwise : otherwise.HasLayout) : NeverFails (s.ifThen cond branch otherwise) := by
  refine .block <| (neverFails_text _).andThen <| (hs.head hcond).block.andThen ?_
  cases otherwise with
  | present => exact (hs.smallBlock hbranch).andThen (hs.branches hotherwise)
  | absent =>
    cases branch with
    | block inner body =>
      cases body with
      | nil => exact neverFails_text _
      | cons =>
        exact (neverFails_text _).andThen <| neverFails_newline.andThen <|
          (hs.stmts hbranch.2).andThen <| neverFails_outdent.andThen (neverFails_text _)

theorem armBlock (name : Option String) {body : Syntax.Tree .block} (h : body.HasLayout) :
    NeverFails (s.armBlock name body) :=
  (neverFails_label name).andThen <| (neverFails_text _).andThen <|
    neverFails_goOn.andThen (hs.blockBody h)

theorem armBody {body : Syntax.Expr} (h : body.HasLayout) : NeverFails (s.armBody body) := by
  have hinner := hasLayout_innermost h
  unfold Scribe.armBody
  split
  · exact hs.armBlock none ⟨trivial, trivial⟩
  · rename_i body heq
    rw [heq] at hinner
    exact hs.armBlock _ hinner
  · rename_i body heq
    rw [heq] at hinner
    exact hs.armBlock _ hinner.2
  · exact neverFails_goOn.andThen <| .block <| (neverFails_gap _).andThen <|
      (hs.expr true hinner).andThen (neverFails_gap _)

theorem arm {a : Syntax.Tree .arm} (h : a.HasLayout) : NeverFails (s.arm a) := by
  cases a with
  | arm _ _ guard =>
    have hend := (neverFails_text " => ").andThen (hs.armBody h.2.2.2)
    refine (hs.outerAttributes h.1).andThen <| .flow <| (hs.pat h.2.1).andThen ?_
    cases guard with
    | absent => exact hend
    | present => exact (neverFails_text _).andThen ((hs.expr false h.2.2.1).andThen hend)

theorem matchOn {t : Syntax.Expr} {inner : Syntax.Tree (.many .attribute)}
    {arms : Syntax.Tree (.many .arm)} (ht : t.HasLayout) (hinner : inner.HasLayout)
    (harms : arms.HasLayout) : NeverFails (s.matchOn t inner.toList arms.toList) := by
  have harms := neverFails_all fun a ha =>
    (hs.arm (harms.of_mem_toList a ha)).andThen neverFails_newline
  exact .flow <| (neverFails_text _).andThen <| (hs.head ht).andThen <|
    (neverFails_text _).andThen <| neverFails_goOn.andThen <| .andThen
      (.block <| (neverFails_gap _).andThen <| (hs.innerAttributes hinner.of_mem_toList).andThen <|
        harms.andThen neverFails_outdent) (neverFails_text _)

/-! ## Expressions -/

theorem jump (keyword : String) {value : Syntax.Tree (.maybe .expr)} (h : value.HasLayout) :
    NeverFails (s.jump keyword value) := by
  refine (neverFails_text _).andThen ?_
  cases value with
  | absent => exact neverFails_pure _
  | present => exact (neverFails_text _).andThen (hs.expr false h)

theorem keywordBlock (keyword : String) {body : Syntax.Tree .block} (h : body.HasLayout) :
    NeverFails (s.keywordBlock keyword body) :=
  (neverFails_text _).andThen (hs.smallBlock h).block

/-- What a range may end with. -/
theorem rangeEnd {stop : Syntax.Tree (.maybe .expr)} (h : stop.HasLayout) : NeverFails (do
    if let some stop := stop.toOption then s.expr false stop) := by
  cases stop with
  | absent => exact neverFails_pure _
  | present => exact hs.expr false h

/-- What a loop may be left with. -/
theorem breakValue (name : Option String) {value : Syntax.Tree (.maybe .expr)}
    (h : value.HasLayout) : NeverFails (match value.toOption with
      | none => pure ()
      | some value => do
        let apart := name.isNone && beginsWithLabel value
        text (if apart then " (" else " ")
        s.expr false value
        if apart then text ")") := by
  cases value with
  | absent => exact neverFails_pure _
  | present =>
    refine (neverFails_text _).andThen <| .andThen ?_ <|
      .ite (neverFails_text _) (neverFails_pure _)
    exact hs.expr false h

theorem writeExpr (lineStart : Bool) {t : Syntax.Expr} (h : t.HasLayout) :
    NeverFails (s.writeExpr lineStart t) := by
  cases t with
  | literal | infer => exact neverFails_text _
  | pathExpr => exact hs.path .value h
  | macroExpr => exact neverFails_macroCall false (by rintro - ⟨⟩)
  | attributed =>
    exact (hs.outerAttributes h.1).andThen <| .check (neverFails_text _) fun _ =>
      (hs.expr lineStart h.2).andThen <| .ite (neverFails_text _) (neverFails_pure _)
  | unary _ inner | reference _ inner | rawAddress _ inner =>
    exact (neverFails_text _).andThen (hs.expr false (t := inner) h)
  | binary operator left =>
    exact .flow <| (hs.expr false (hasLayout_leftSide operator h.1)).flow.andThen <|
      neverFails_space.andThen <| (neverFails_text _).andThen <| (neverFails_text _).andThen <|
      hs.expr false h.2
  | assign =>
    exact .flow <| (hs.expr false h.1).andThen <| (neverFails_text _).andThen <|
      neverFails_goOn.andThen (hs.expr false h.2)
  | cast =>
    exact .flow <| (hs.expr false h.1).flow.andThen <| neverFails_space.andThen <|
      (neverFails_text _).andThen (hs.type h.2)
  | question inner => exact (hs.expr lineStart (t := inner) h).andThen (neverFails_text _)
  | await base | field base => exact (hs.writeLink lineStart h).block
  | call =>
    exact (hs.expr false h.1).andThen <| (neverFails_text _).andThen <|
      (hs.callArgs h.2.of_mem_toList).andThen (neverFails_text _)
  | methodCall => exact (hs.method lineStart true h.1 h.2.1 h.2.2).block
  | index =>
    exact (hs.expr lineStart h.1).andThen <| (neverFails_text _).andThen <|
      (hs.expr false h.2).andThen (neverFails_text _)
  | range start =>
    have hstop := hs.rangeEnd h.2
    cases start with
    | absent => exact (neverFails_text _).andThen hstop
    | present => exact (hs.expr false h.1).andThen ((neverFails_text _).andThen hstop)
  | paren inner =>
    exact (neverFails_text _).andThen ((hs.expr false (t := inner) h).andThen (neverFails_text _))
  | tuple =>
    exact (neverFails_text _).andThen ((hs.tupleElems h.of_mem_toList).andThen (neverFails_text _))
  | array =>
    exact (neverFails_text _).andThen ((hs.arrayElems h.of_mem_toList).andThen (neverFails_text _))
  | repeated =>
    exact (neverFails_text _).andThen <| (hs.expr false h.1).andThen <|
      (neverFails_text _).andThen <| (hs.expr false h.2).andThen (neverFails_text _)
  | structExpr _ _ _ base =>
    refine .andThen (.narrowBlock <| (hs.path .value h.1).andThen <| (neverFails_text _).andThen <|
      (neverFails_gap _).andThen <| .andThen ?_ ?_) (neverFails_text _)
    · exact neverFails_each fun field hfield _ _ =>
        (hs.fieldValue (h.2.1.of_mem_toList field hfield)).andThen (neverFails_commaBeforeBrace _)
    · cases base with
      | absent => exact neverFails_outdent
      | present =>
        exact (neverFails_text _).andThen <| (hs.expr false h.2.2).andThen <|
          neverFails_space.andThen neverFails_outdent
  | blockExpr name body =>
    have hbody : body.HasLayout := h
    exact (neverFails_label name).andThen (hs.smallBlock hbody).block
  | unsafeBlock | asyncBlock | constBlock | tryBlock => exact hs.keywordBlock _ h
  | ifThen => exact hs.ifThen h.1 h.2.1 h.2.2
  | letIn =>
    exact .flow <| (neverFails_text _).andThen <| (hs.pat h.1).andThen <|
      (neverFails_text _).andThen <| neverFails_goOn.andThen (hs.expr false h.2)
  | whileLoop name =>
    exact (neverFails_label name).andThen <| (neverFails_text _).andThen <|
      (hs.head h.1).andThen <| (neverFails_text _).andThen <| neverFails_goOn.andThen <|
      hs.blockBody h.2
  | loop name body =>
    have hbody : body.HasLayout := h
    exact (neverFails_label name).andThen ((neverFails_text _).andThen (hs.blockBody hbody))
  | forLoop name =>
    exact .flow <| (neverFails_label name).andThen <| (neverFails_text _).andThen <|
      (hs.pat h.1).andThen <| (neverFails_text _).andThen <| neverFails_goOn.andThen <|
      (hs.head h.2.1).andThen <| (neverFails_text _).andThen <| neverFails_goOn.andThen <|
      hs.blockBody h.2.2
  | matchOn => exact hs.matchOn h.1 h.2.1 h.2.2
  | closure => exact hs.closure h.1 h.2.1 h.2.2.1 h.2.2.2
  | breakTo name value =>
    have hlayout : value.HasLayout := h
    have hvalue := hs.breakValue name hlayout
    refine (neverFails_text _).andThen ?_
    cases name with
    | none => exact hvalue
    | some => exact (neverFails_text _).andThen hvalue
  | continueTo name =>
    refine (neverFails_text _).andThen ?_
    cases name with
    | none => exact neverFails_pure _
    | some => exact neverFails_text _
  | returnWith | yieldWith => exact hs.jump _ h
  | rawExpr => exact h.elim

end Scribe.Writes

end ForeignWrap.Layout
