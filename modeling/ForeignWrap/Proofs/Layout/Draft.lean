import ForeignWrap.Layout.Attribute
import ForeignWrap.Proofs.Results

/-!
# Writers that never fail

Most writers only add marks to a draft, and writers that are put together of such never fail either.
Only code without a tree of its own and rules of a macro that are not like rules have no layout.

## Main definitions

* `ForeignWrap.Layout.NeverFails`: a writer that has a result whatever the draft holds.
* `ForeignWrap.Layout.areRules`: what the definition of a macro by rules has to hold.

## Main statements

* `ForeignWrap.Layout.neverFails_macroCall`: a use of a macro is written.
-/

namespace ForeignWrap.Layout

open Code (Delimiter Token)
open Syntax (MacroCall UseTree)

variable {α β : Type}

/-- A writer that has a result whatever the draft holds. -/
def NeverFails (w : DraftM α) : Prop :=
  ∀ marks, ∃ result, w marks = .ok result

/-! ## Writers one after another -/

theorem neverFails_pure (a : α) : NeverFails (pure a : DraftM α) :=
  fun marks => ⟨(a, marks), rfl⟩

theorem neverFails_modify (f : List Mark → List Mark) : NeverFails (modify f : Draft) :=
  fun marks => ⟨((), f marks), rfl⟩

theorem NeverFails.bind {w : DraftM α} {f : α → DraftM β} (hw : NeverFails w)
    (hf : ∀ a, NeverFails (f a)) : NeverFails (w >>= f) := by
  intro marks
  obtain ⟨⟨a, between⟩, hresult⟩ := hw marks
  obtain ⟨result, hlast⟩ := hf a between
  exact ⟨result, bind_eq_ok_iff.2 ⟨_, hresult, hlast⟩⟩

/-- A writer and one that takes nothing from it. -/
theorem NeverFails.andThen {w : DraftM α} {next : DraftM β} (hw : NeverFails w)
    (hnext : NeverFails next) : NeverFails (w >>= fun _ => next) :=
  hw.bind fun _ => hnext

theorem NeverFails.ite {condition : Prop} [Decidable condition] {w w' : DraftM α}
    (hw : NeverFails w) (hw' : NeverFails w') : NeverFails (if condition then w else w') := by
  split
  · exact hw
  · exact hw'

/-- Something may be written before what is written in any case. -/
theorem NeverFails.check {condition : Prop} [Decidable condition] {w : Draft}
    {next : Unit → DraftM β} (hw : NeverFails w) (hnext : ∀ a, NeverFails (next a)) :
    NeverFails (if condition then w >>= next else next ()) :=
  (hw.bind hnext).ite (hnext ())

/-! ## Marks -/

theorem neverFails_text (s : String) : NeverFails (text s) :=
  neverFails_modify _

theorem neverFails_gap (g : Gap) : NeverFails (gap g) :=
  neverFails_modify _

theorem neverFails_mayEnd : NeverFails mayEnd :=
  neverFails_gap _

theorem neverFails_space : NeverFails space :=
  neverFails_gap _

theorem neverFails_newline : NeverFails newline :=
  neverFails_gap _

theorem neverFails_goOn : NeverFails goOn :=
  neverFails_gap _

theorem neverFails_outdent : NeverFails outdent :=
  neverFails_modify _

theorem neverFails_comma (isLast : Bool) : NeverFails (comma isLast) :=
  (neverFails_gap _).ite ((neverFails_text _).andThen neverFails_space)

theorem neverFails_commaBeforeBrace (isLast : Bool) : NeverFails (commaBeforeBrace isLast) :=
  (neverFails_gap _).ite ((neverFails_text _).andThen neverFails_space)

/-! ## Boxes -/

theorem NeverFails.box {kind : BoxKind} {indent : Int} {content : Draft} (h : NeverFails content) :
    NeverFails (box kind indent content) :=
  (neverFails_modify _).andThen (h.andThen (neverFails_modify _))

theorem NeverFails.flow {indent : Int} {content : Draft} (h : NeverFails content) :
    NeverFails (flow indent content) :=
  h.box

theorem NeverFails.block {indent : Int} {content : Draft} (h : NeverFails content) :
    NeverFails (block indent content) :=
  h.box

theorem NeverFails.narrowBlock {indent : Int} {most : Nat} {content : Draft}
    (h : NeverFails content) : NeverFails (narrowBlock indent most content) :=
  (h.andThen (neverFails_modify _)).block

/-! ## Lists -/

theorem neverFails_eachFrom {elements : List α} {write : (isFirst isLast : Bool) → α → Draft}
    (isFirst : Bool) (h : ∀ a ∈ elements, ∀ isFirst isLast, NeverFails (write isFirst isLast a)) :
    NeverFails (eachFrom write isFirst elements) := by
  induction elements generalizing isFirst with
  | nil => exact neverFails_pure _
  | cons a rest ih =>
    obtain ⟨ha, hrest⟩ := List.forall_mem_cons.1 h
    cases rest with
    | nil => exact ha isFirst true
    | cons b rest => exact (ha isFirst false).andThen (ih false hrest)

theorem neverFails_each {elements : List α} {write : (isFirst isLast : Bool) → α → Draft}
    (h : ∀ a ∈ elements, ∀ isFirst isLast, NeverFails (write isFirst isLast a)) :
    NeverFails (each elements write) :=
  neverFails_eachFrom true h

theorem neverFails_all {elements : List α} {write : α → Draft}
    (h : ∀ a ∈ elements, NeverFails (write a)) : NeverFails (all elements write) :=
  neverFails_each fun a ha _ _ => h a ha

theorem neverFails_commaBlock {indent : Int} {elements : List α} {write : α → Draft}
    (h : ∀ a ∈ elements, NeverFails (write a)) : NeverFails (commaBlock indent elements write) :=
  .block <| neverFails_mayEnd.andThen <| .andThen
    (neverFails_each fun a ha _ isLast => (h a ha).andThen (neverFails_comma isLast))
    neverFails_outdent

theorem neverFails_sepText {separator : String} {elements : List α} {write : α → Draft}
    (h : ∀ a ∈ elements, NeverFails (write a)) : NeverFails (sepText separator elements write) :=
  neverFails_each fun a ha _ _ => .check (neverFails_text _) fun _ => h a ha

/-! ## Macros -/

mutual

theorem neverFails_macroToken (matcher : Bool) : (t : Token) → NeverFails (macroToken matcher t)
  | .word _ | .sign _ _ | .literal _ => by
    rw [macroToken]
    exact neverFails_text _
  | .group delimiter content => by
    rw [macroToken]
    exact (neverFails_text _).andThen <| .check neverFails_space fun _ =>
      (neverFails_macroTokensFrom matcher .start true content).andThen <|
        .check neverFails_space fun _ => neverFails_text _

theorem neverFails_macroTokensFrom (matcher : Bool) (context : Context) (held : Bool) :
    (tokens : List Token) → NeverFails (macroTokensFrom matcher context held tokens)
  | [] => by
    rw [macroTokensFrom]
    exact neverFails_pure _
  | token :: rest => by
    have hnext := (neverFails_macroToken matcher token).andThen
      (neverFails_macroTokensFrom matcher (context.next matcher token).2 (holdsNext token) rest)
    rw [macroTokensFrom]
    exact .ite (.ite (neverFails_space.andThen hnext) (.check neverFails_mayEnd fun _ => hnext))
      hnext

end

theorem neverFails_inBlock {edge content : Draft} (hedge : NeverFails edge)
    (hcontent : NeverFails content) : NeverFails (inBlock edge content) :=
  .block <| hedge.andThen <| hcontent.flow.andThen <| hedge.andThen neverFails_outdent

theorem neverFails_matcher (delimiter : Delimiter) (content : List Token) :
    NeverFails (matcher delimiter content) :=
  (neverFails_text _).andThen <| .check
    (neverFails_inBlock neverFails_mayEnd (neverFails_macroTokensFrom _ _ _ _))
    fun _ => neverFails_text _

theorem neverFails_macroRule (delimiter : Delimiter) (left right : List Token) :
    NeverFails (macroRule delimiter left right) :=
  (neverFails_matcher delimiter left).andThen <| (neverFails_text _).andThen <|
    neverFails_goOn.andThen <| .check
      (neverFails_inBlock neverFails_newline (neverFails_macroTokensFrom _ _ _ _))
      fun _ => (neverFails_text _).andThen neverFails_newline

/-- Whether tokens are rules of a macro with semicolons between them, the last of which may be
incomplete. -/
def areRules : List Token → Bool
  | [] => true
  | [.group _ _] => true
  | [.group _ _, .sign '=' true] => true
  | [.group _ _, .sign '=' true, .sign '>' false] => true
  | [.group _ _, .sign '=' true, .sign '>' false, .group _ _] => true
  | .group _ _ :: .sign '=' true :: .sign '>' false :: .group _ _ :: .sign ';' false :: rest =>
    areRules rest
  | _ => false

theorem neverFails_macroRulesFrom {tokens : List Token} (h : areRules tokens = true) :
    NeverFails (macroRulesFrom tokens) := by
  fun_induction areRules tokens with
  | case1 => exact neverFails_pure _
  | case2 => exact (neverFails_matcher _ _).andThen neverFails_newline
  | case3 | case4 =>
    exact (neverFails_matcher _ _).andThen ((neverFails_text _).andThen neverFails_newline)
  | case5 => exact neverFails_macroRule _ _ _
  | case6 _ _ _ _ rest ih => exact (neverFails_macroRule _ _ _).andThen (ih h)
  | case7 => cases h

theorem neverFails_macroRules (name : String) {content : List Token} (h : areRules content = true) :
    NeverFails (macroRules name content) :=
  (neverFails_text _).andThen <| (neverFails_text _).andThen <| (neverFails_text _).andThen <|
    .andThen (.block <| (neverFails_gap _).andThen <|
      (neverFails_macroRulesFrom h).andThen neverFails_outdent) (neverFails_text _)

/-- Whether a use of a macro has a layout: one that defines another by rules has to hold rules. -/
def HasRules (call : MacroCall) (name : Option String) : Prop :=
  call.path.isName "macro_rules" = true → name.isSome = true → areRules call.content = true

/-- A use of a macro is written. -/
theorem neverFails_macroCall {call : MacroCall} {name : Option String} (semicolon : Bool)
    (h : HasRules call name) : NeverFails (macroCall call name semicolon) := by
  have hend : NeverFails (do
      text (closing call.delimiter)
      if semicolon then text ";") :=
    (neverFails_text _).andThen (.ite (neverFails_text _) (neverFails_pure _))
  have hcontent : NeverFails (do
      text (if call.delimiter = .brace then " \x7b" else opening call.delimiter)
      if !call.content.isEmpty then
        inBlock (if call.delimiter = .brace then newline else mayEnd)
          (macroTokens false call.content)
      text (closing call.delimiter)
      if semicolon then text ";") :=
    (neverFails_text _).andThen <| .check
      (neverFails_inBlock (.ite neverFails_newline neverFails_mayEnd)
        (neverFails_macroTokensFrom _ _ _ _)) fun _ => hend
  have hpath := neverFails_text (pathText call.path)
  unfold macroCall
  cases name with
  | none =>
    cases call.path.isName "macro_rules" <;>
      exact hpath.andThen ((neverFails_text _).andThen hcontent)
  | some name =>
    cases hrules : call.path.isName "macro_rules" with
    | true => exact neverFails_macroRules name (h hrules rfl)
    | false =>
      exact hpath.andThen <| (neverFails_text _).andThen <| (neverFails_text _).andThen <|
        (neverFails_text _).andThen hcontent

end ForeignWrap.Layout
