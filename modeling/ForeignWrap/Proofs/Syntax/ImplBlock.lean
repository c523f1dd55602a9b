import ForeignWrap.Proofs.Syntax.Item
import ForeignWrap.Proofs.Syntax.Statement
import ForeignWrap.Proofs.Syntax.Type

/-!
# Impl blocks as code

An impl block of one public method is read from its code, if its types and its body are.

## Main definitions

* `ForeignWrap.Syntax.Grammar.reads_outerAttributes`: the attributes of an item.
* `ForeignWrap.Syntax.Grammar.reads_signature`: the head of a method.
* `ForeignWrap.Syntax.Grammar.reads_readItem_impl`: the impl block.
-/

namespace ForeignWrap.Syntax

open Code (Delimiter Token word parens brackets braces)
open Syntax.Parser

namespace Grammar

variable (g : Grammar) {rest : List Token}

/-! ## Attributes -/

/-- The content of an attribute that is read as `attr`. -/
def IsAttribute (content : List Token) (attr : Attribute) : Prop :=
  Reads (g.attributeBody false) content attr []

theorem reads_namePath_name {name : String} (hname : isName name = true)
    (hrest : atOp "::" rest = false) :
    Reads namePath (.word name :: rest) ⟨false, [name]⟩ rest :=
  @reads_namePath rest false name [] (.inl hname) (List.forall_mem_nil _) hrest

/-- An attribute with a literal for its value. -/
theorem isAttribute_value {name : String} (text : String) (hname : isName name = true) :
    g.IsAttribute (word name ++ (Code.op "=" ++ [.literal text]))
      (.valueAttribute false ⟨false, [name]⟩ (.literal text)) := by
  refine (reads_keyword?_false (atWord_word_of_isName hname (by decide))).bind ?_
  refine (reads_namePath_name hname rfl).bind (reads_ahead_bind ?_)
  have hvalue : Reads g.attributeValue [.literal text] (.literal text) [] :=
    reads_ahead_bind ((reads_literal _ _).bind (reads_pure _ _))
  exact (reads_op (by decide) _).bind (hvalue.bind (reads_pure _ _))

/-- An attribute with code in parentheses. -/
theorem isAttribute_list {name : String} (content : List Token) (hname : isName name = true) :
    g.IsAttribute (word name ++ parens content)
      (.listAttribute false ⟨false, [name]⟩ .parenthesis content) := by
  refine (reads_keyword?_false (atWord_word_of_isName hname (by decide))).bind ?_
  refine (reads_namePath_name hname rfl).bind (reads_ahead_bind ?_)
  exact (reads_anyGroup _ _ _).bind (reads_pure _ _)

/-- Attributes are read one after another. -/
theorem reads_outerAttributes {contents : List (List Token)} {attrs : List Attribute}
    (h : List.Forall₂ g.IsAttribute contents attrs) (hrest : atOp "#" rest = false) :
    Reads g.outerAttributes (contents.flatMap (Code.op "#" ++ brackets ·) ++ rest) attrs rest := by
  apply CollectsIn.reads
  induction h with
  | nil => exact .done ((reads_op?_false hrest).bind (reads_pure _ _))
  | @cons content attr contents attrs hcontent _ ih =>
    have hop : Reads (op? "#") (Code.op "#" ++ brackets content ++
        contents.flatMap (Code.op "#" ++ brackets ·) ++ rest) true
        (.group .bracket content :: (contents.flatMap (Code.op "#" ++ brackets ·) ++ rest)) :=
      reads_op?_true rfl
    refine .more (hop.bind ?_) ?_ ih
    · exact (reads_inside hcontent).bind (reads_pure _ _)
    · simp +arith [Code.op, Code.opSigns, brackets]

/-! ## Parameters -/

/-- The receiver of a method that does not change it. -/
def receiverParam : Tree .param :=
  .receiver .nil (some ⟨none⟩) false .absent

theorem atOp_of_atListEnd {signs : String} (hsigns : signs ∈ [":", "::", "..."])
    (h : AtListEnd rest) : atOp signs rest = false := by
  obtain rfl | ⟨joint, more, rfl⟩ := h
  · revert signs
    decide
  · simp only [List.mem_cons, List.not_mem_nil, or_false] at hsigns
    obtain rfl | rfl | rfl := hsigns <;> rfl

theorem reads_receiver (hrest : AtListEnd rest) :
    Reads (g.receiver []) (Code.op "&" ++ (word "self" ++ rest)) receiverParam rest := by
  have hop : Reads (op? "&") (Code.op "&" ++ (word "self" ++ rest)) true (word "self" ++ rest) :=
    reads_op?_true rfl
  refine hop.bind ((reads_lifetime?_none rfl).bind ((reads_pure _ _).bind ?_))
  refine (reads_keyword?_false rfl).bind ((reads_keyword _ _).bind ?_)
  refine (reads_op?_false (atOp_of_atListEnd (by simp) hrest)).bind ?_
  exact (reads_pure _ _).bind (reads_pure _ _)

/-- A receiver is attempted first, and then taken. -/
theorem reads_param_receiver (hrest : AtListEnd rest) :
    Reads g.param (Code.op "&" ++ (word "self" ++ rest)) receiverParam rest := by
  refine (reads_outerAttributes_nil g rfl).bind ?_
  refine (reads_op?_false rfl).bind (reads_ahead_bind ?_)
  have hahead : atReceiver (Code.op "&" ++ (word "self" ++ rest)) = true := by
    have hself : atReceiver (Code.op "&" ++ (word "self" ++ rest)) = !atOp "::" rest := rfl
    rw [hself, atOp_of_atListEnd (by simp) hrest]
    rfl
  rw [if_pos hahead]
  obtain ⟨written, hreceiver⟩ := reads_receiver g hrest
  refine ⟨written, fun taken leftover => ?_⟩
  have hattempt := attempt_eq (g.receiver [])
    ⟨Code.op "&" ++ (word "self" ++ rest), taken, leftover⟩
  rw [hreceiver] at hattempt
  exact bind_eq_ok_iff.2 ⟨_, hattempt, rfl⟩

/-- A parameter of a type. -/
def typedParam (name : String) (type : Ty) : Tree .param :=
  .typedParam .nil (namePat name) type

theorem reads_param_typed {name : String} {typeCode : List Token} {type : Ty}
    (hname : isName name = true)
    (hpat : Reads g.pat (word name ++ (Code.op ":" ++ (typeCode ++ rest))) (namePat name)
      (Code.op ":" ++ (typeCode ++ rest)))
    (hdots : atOp "..." (typeCode ++ rest) = false)
    (htype : Reads (g.type true) (typeCode ++ rest) type rest) :
    Reads g.param (word name ++ (Code.op ":" ++ (typeCode ++ rest)))
      (typedParam name type) rest := by
  refine (reads_outerAttributes_nil g rfl).bind ?_
  refine (reads_op?_false rfl).bind (reads_ahead_bind ?_)
  have hword : ∀ k ∈ keywords,
      atWord k (word name ++ (Code.op ":" ++ (typeCode ++ rest))) = false :=
    fun k hk => atWord_word_of_isName hname hk
  have hreceiver : atReceiver (word name ++ (Code.op ":" ++ (typeCode ++ rest))) = false := by
    have href : atOp "&" (word name ++ (Code.op ":" ++ (typeCode ++ rest))) = false := rfl
    simp only [atReceiver, afterOptionalWord, href, hword "mut" (by decide),
      hword "self" (by decide), Bool.false_eq_true, if_false, Bool.false_and]
  have hangle : atOp "<" (skip (word name ++ (Code.op ":" ++ (typeCode ++ rest)))) = false := rfl
  simp only [hreceiver, hangle, Bool.and_false, Bool.false_eq_true, if_false]
  refine hpat.bind ((reads_op (by decide) _).bind ((reads_op?_false hdots).bind ?_))
  exact htype.bind (reads_pure _ _)

/-- One of the parameters, with the comma after it if the list goes on. -/
theorem reads_paramsUpTo_succ {bound : Nat} {before : List (Tree .param)} {param : Tree .param}
    {params : List (Tree .param)} {piece tokens : List Token} (hne : piece ≠ [])
    (hreceiver : param.isReceiver = true → before = []) (hvariadic : param.isVariadicParam = false)
    (hparam : ∀ rest, AtListEnd rest → Reads g.param (piece ++ rest) param rest)
    (hrest : rest = [] ∧ tokens = [] ∨ rest = Code.op "," ++ tokens)
    (hmore : Reads (g.paramsUpTo bound (before ++ [param])) tokens params []) :
    Reads (g.paramsUpTo (bound + 1) before) (piece ++ rest) params [] := by
  have hend : AtListEnd rest := by
    obtain ⟨rfl, -⟩ | rfl := hrest
    · exact .inl rfl
    · exact .inr ⟨_, _, rfl⟩
  refine (reads_atEnd _).bind ?_
  rw [if_neg (by simp [hne])]
  refine (hparam rest hend).bind ?_
  have hlast : Reads (do
      if !(← atEnd) then op ","
      let before := before ++ [param]
      if param.isVariadicParam then return before else g.paramsUpTo bound before)
      rest params [] := by
    refine (reads_atEnd _).bind ?_
    simp only [hvariadic, Bool.false_eq_true, if_false]
    obtain ⟨rfl, rfl⟩ | rfl := hrest
    · exact hmore
    · exact (reads_op (by decide) _).bind hmore
  cases hkind : param.isReceiver with
  | false => exact hlast
  | true =>
    obtain rfl := hreceiver hkind
    exact hlast

/-- A piece of code that is a parameter after the receiver. -/
structure IsParam (piece : List Token) (param : Tree .param) : Prop where
  ne_nil : piece ≠ []
  receiver : param.isReceiver = false
  variadic : param.isVariadicParam = false
  reads : ∀ rest, AtListEnd rest → Reads g.param (piece ++ rest) param rest

/-- The parameters after others are read one by one. -/
theorem reads_paramsUpTo {pieces : List (List Token)} {params before : List (Tree .param)}
    {bound : Nat} (h : List.Forall₂ g.IsParam pieces params) (hbound : pieces.length ≤ bound) :
    Reads (g.paramsUpTo bound before) (Code.separated (Code.op ",") pieces)
      (before ++ params) [] := by
  induction h generalizing before bound with
  | nil =>
    rw [List.append_nil]
    cases bound with
    | zero => exact reads_pure _ _
    | succ bound => exact (reads_atEnd _).bind (reads_pure _ _)
  | @cons piece param pieces params hparam hparams ih =>
    obtain ⟨bound, rfl⟩ := Nat.exists_eq_add_one.2 (Nat.lt_of_lt_of_le (Nat.succ_pos _) hbound)
    have hmore : Reads (g.paramsUpTo bound (before ++ [param]))
        (Code.separated (Code.op ",") pieces) (before ++ [param] ++ params) [] :=
      ih (Nat.le_of_succ_le_succ hbound)
    rw [← List.append_cons] at hmore
    have hbare : param.isReceiver = true → before = [] := by simp [hparam.receiver]
    cases hparams with
    | nil =>
      have hread := reads_paramsUpTo_succ g hparam.ne_nil hbare hparam.variadic hparam.reads
        (.inl ⟨rfl, rfl⟩) hmore
      rwa [List.append_nil] at hread
    | cons _ _ =>
      rw [Code.separated, List.append_assoc]
      exact reads_paramsUpTo_succ g hparam.ne_nil hbare hparam.variadic hparam.reads (.inr rfl)
        hmore

/-- The parameters of a method are its receiver and the others. -/
theorem reads_params {pieces : List (List Token)} {params : List (Tree .param)}
    (h : List.Forall₂ g.IsParam pieces params) :
    Reads g.params
      (parens (Code.separated (Code.op ",") (referenceCode (word "self") :: pieces)) ++ rest)
      (receiverParam :: params) rest := by
  refine reads_inside (reads_ahead_bind ?_)
  have hreceiver : ∀ rest, AtListEnd rest →
      Reads g.param (referenceCode (word "self") ++ rest) receiverParam rest :=
    fun _ => reads_param_receiver g
  have hne : referenceCode (word "self") ≠ [] := by simp [referenceCode, Code.op, Code.opSigns]
  have hmore : Reads (g.paramsUpTo (Code.separated (Code.op ",")
      (referenceCode (word "self") :: pieces)).length ([] ++ [receiverParam]))
      (Code.separated (Code.op ",") pieces) (receiverParam :: params) [] := by
    exact reads_paramsUpTo g h (Code.length_le_length_separated _ pieces)
  cases h with
  | nil =>
    have hread := reads_paramsUpTo_succ g hne (fun _ => rfl) rfl hreceiver (.inl ⟨rfl, rfl⟩) hmore
    rwa [List.append_nil] at hread
  | cons _ _ =>
    rw [Code.separated, List.append_assoc]
    exact reads_paramsUpTo_succ g hne (fun _ => rfl) rfl hreceiver (.inr rfl) hmore

/-! ## Methods -/

/-- The signature of a method with a receiver, a result and nothing else. -/
def methodSignature (name : String) (params : List (Tree .param)) (result : Ty) : Tree .signature :=
  .signature false false false none name (.generics .nil .nil)
    (.ofList (receiverParam :: params)) (.present result)

/-- The parameters of a method as code. -/
def paramsCode (pieces : List (List Token)) : List Token :=
  Code.separated (Code.op ",") (referenceCode (word "self") :: pieces)

theorem reads_conditions_nil {content : List Token} :
    Reads g.conditions (.group .brace content :: rest) [] (.group .brace content :: rest) := by
  have hnone : Reads g.conditions? (.group .brace content :: rest) none
      (.group .brace content :: rest) := reads_ahead_bind (reads_pure _ _)
  exact hnone.bind (reads_pure _ _)

/-- The head of a method in front of its body. -/
theorem reads_signature {name : String} {pieces : List (List Token)} {params : List (Tree .param)}
    {resultCode body : List Token} {result : Ty} (hname : isName name = true)
    (hparams : List.Forall₂ g.IsParam pieces params)
    (hresult : Reads (g.type true) (resultCode ++ (braces body ++ rest)) result
      (braces body ++ rest)) :
    Reads g.signature (fnCode name (paramsCode pieces) resultCode body ++ rest)
      (methodSignature name params result) (braces body ++ rest) := by
  have hcode : fnCode name (paramsCode pieces) resultCode body ++ rest =
      word "fn" ++ (word name ++ (parens (paramsCode pieces) ++
        (Code.op "->" ++ (resultCode ++ (braces body ++ rest))))) := by
    simp only [fnCode, List.append_assoc]
  rw [hcode]
  have houtput : Reads (g.arrowType? true) (Code.op "->" ++ (resultCode ++ (braces body ++ rest)))
      (some result) (braces body ++ rest) := by
    have hop : Reads (op? "->") (Code.op "->" ++ (resultCode ++ (braces body ++ rest))) true
        (resultCode ++ (braces body ++ rest)) := reads_op?_true rfl
    exact hop.bind (hresult.bind (reads_pure _ _))
  have habi : ∀ tokens, Reads abi? (word "fn" ++ tokens) none (word "fn" ++ tokens) := fun _ =>
    (reads_keyword?_false rfl).bind (reads_pure _ _)
  refine Reads.bind (a := (methodSignature name params result, false)) ?_ (reads_pure _ _)
  refine (reads_keyword?_false rfl).bind ((reads_keyword?_false rfl).bind ?_)
  refine (reads_keyword?_false rfl).bind ((reads_pure _ _).bind ((habi _).bind ?_))
  refine (reads_keyword _ _).bind ((reads_name hname _).bind ?_)
  refine (reads_genericParams_nil rfl).bind ((reads_params g hparams).bind ?_)
  exact houtput.bind ((reads_conditions_nil g).bind (reads_pure _ _))

/-- A method with statements for its body. -/
def methodItem (attrs : List Attribute) (name : String) (params : List (Tree .param)) (result : Ty)
    (stmts : List Stmt) : Item :=
  .fnItem (.ofList attrs) .everyone false (methodSignature name params result)
    (.present (stmtsBlock stmts))

theorem reads_fnItem? {attrs : List Attribute} {name : String} {pieces : List (List Token)}
    {params : List (Tree .param)} {resultCode body : List Token} {result : Ty} {stmts : List Stmt}
    (hname : isName name = true) (hparams : List.Forall₂ g.IsParam pieces params)
    (hresult : Reads (g.type true) (resultCode ++ (braces body ++ rest)) result
      (braces body ++ rest))
    (hhash : atOp "#" body = false) (hbody : Reads g.stmts body stmts []) :
    Reads (g.fnItem? .impl attrs .everyone false)
      (fnCode name (paramsCode pieces) resultCode body ++ rest)
      (some (methodItem attrs name params result stmts)) rest := by
  refine (reads_signature g hname hparams hresult).bind ?_
  refine (reads_op?_false rfl).bind (reads_ahead_bind ?_)
  exact (reads_attributedBlock g hhash hbody).bind (reads_pure _ _)

/-- A public method with attributes in an impl block. -/
theorem reads_readImplItem {contents : List (List Token)} {attrs : List Attribute} {name : String}
    {pieces : List (List Token)} {params : List (Tree .param)} {resultCode body : List Token}
    {result : Ty} {stmts : List Stmt} (hattrs : List.Forall₂ g.IsAttribute contents attrs)
    (hname : isName name = true) (hparams : List.Forall₂ g.IsParam pieces params)
    (hresult : Reads (g.type true) (resultCode ++ (braces body ++ rest)) result
      (braces body ++ rest))
    (hhash : atOp "#" body = false) (hbody : Reads g.stmts body stmts []) :
    Reads g.readImplItem (fnContent contents name (paramsCode pieces) resultCode body ++ rest)
      (methodItem attrs name params result stmts) rest := by
  apply reads_orRaw
  have hvisibility : Reads visibility
      (word "pub" ++ fnCode name (paramsCode pieces) resultCode body ++ rest) .everyone
      (fnCode name (paramsCode pieces) resultCode body ++ rest) := reads_visibility_everyone _
  rw [fnContent, List.append_assoc]
  refine (reads_outerAttributes g hattrs rfl).bind (hvisibility.bind (reads_ahead_bind ?_))
  have hdefault :
      atWord "default" (fnCode name (paramsCode pieces) resultCode body ++ rest) = false :=
    rfl
  have hfn : atSignature false (fnCode name (paramsCode pieces) resultCode body ++ rest) = true :=
    rfl
  simp only [hdefault, Bool.false_and, Bool.false_eq_true, if_false]
  refine reads_ahead_bind ?_
  simp only [hfn, if_true]
  exact reads_fnItem? g hname hparams hresult hhash hbody

/-! ## Impl blocks -/

/-- Where the type of an impl block begins. -/
structure BeginsImplType (tokens : List Token) : Prop where
  params : atGenericParams tokens = false
  const : atWord "const" tokens = false
  question : atOp "?" tokens = false
  bang : atOp "!" tokens = false

/-- An impl block of one method on a type. -/
def implOfMethod (type : Ty) (method : Item) : Item :=
  .implItem .nil false false (.generics .nil .nil) false .absent type (.ofList [method])

theorem reads_implBlock?_method {typeCode content : List Token} {type : Ty} {method : Item}
    (hbegins : BeginsImplType (typeCode ++ (braces content ++ rest)))
    (htype : Reads (g.type true) (typeCode ++ (braces content ++ rest)) type
      (braces content ++ rest))
    (hinner : Reads g.innerAttributes content [] content) (hne : content ≠ [])
    (hmethod : Reads g.implItem content method []) :
    Reads (g.implBlock? [] .inherited) (word "impl" ++ (typeCode ++ (braces content ++ rest)))
      (some (implOfMethod type method)) rest := by
  have himpl : Reads (keyword "impl") (word "impl" ++ (typeCode ++ (braces content ++ rest))) ()
      (typeCode ++ (braces content ++ rest)) := reads_keyword _ _
  refine (reads_keyword?_false rfl).bind ((reads_keyword?_false rfl).bind (himpl.bind ?_))
  refine reads_ahead_bind ?_
  simp only [hbegins.params, Bool.false_eq_true, if_false]
  refine (reads_pure _ _).bind (reads_ahead_bind ?_)
  simp only [hbegins.const, hbegins.question, Bool.false_and, Bool.or_self, Bool.false_eq_true,
    if_false]
  refine reads_ahead_bind ?_
  simp only [hbegins.bang, Bool.false_and, Bool.and_false, Bool.false_eq_true, if_false]
  refine htype.bind ((reads_keyword?_false rfl).bind ((reads_pure _ _).bind ?_))
  refine (reads_conditions_nil g).bind (reads_inside (hinner.bind ?_))
  exact (reads_untilEnd (.more (reads_endStep hne hmethod) (List.length_pos_of_ne_nil hne)
    (.done (reads_endStep_none _)))).bind (reads_pure _ _)

/-- After `impl` an item is an impl block. -/
theorem reads_readItem_impl {tokens : List Token} {item : Item}
    (h : Reads (g.implBlock? [] .inherited) (word "impl" ++ tokens) (some item) rest) :
    Reads g.readItem (word "impl" ++ tokens) item rest := by
  apply reads_orRaw
  refine (reads_outerAttributes_nil g rfl).bind ?_
  refine (reads_visibility_inherited rfl).bind (reads_ahead_bind ?_)
  have hsignature : atSignature false (word "impl" ++ tokens) = false := rfl
  have hextern : atWord "extern" (word "impl" ++ tokens) = false := rfl
  simp only [hsignature, hextern, Bool.false_eq_true, if_false]
  refine (reads_keyword?_false rfl).bind ?_
  have hstatic : atWord "static" (word "impl" ++ tokens) = false := rfl
  simp only [hstatic, Bool.false_eq_true, if_false]
  refine (reads_keyword?_false rfl).bind ?_
  exact h

end Grammar

end ForeignWrap.Syntax
