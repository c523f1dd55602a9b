import ForeignWrap.Proofs.Generation.Format

/-!
# The calls of a generated file

Where code is a file, the method of each directive calls the foreign function with the context and
with one argument for each that the directive names. What a method calls its foreign function with
is told by its item alone.

## Main definitions

* `ForeignWrap.Method.Calls.unique`: an item calls one foreign function, with its arguments.
* `ForeignWrap.Generation.callsWith_of_fileOf_eq_ok`: the call of each method in a file.
-/

namespace ForeignWrap

open Syntax (Grammar IsImplOf SaysPlainType nameExpr)
open Syntax.Parser (Reads)

/-! ## One call in each item -/

/-- What comes first of its kind in a list is the same however the list is split there. -/
theorem eq_of_append_cons_eq {α : Type} {p : α → Prop} {xs xs' ys ys' : List α} {x x' : α}
    (hxs : ∀ y ∈ xs, ¬ p y) (hxs' : ∀ y ∈ xs', ¬ p y) (hx : p x) (hx' : p x')
    (h : xs ++ x :: ys = xs' ++ x' :: ys') : x = x' := by
  induction xs generalizing xs' with
  | nil =>
    cases xs' with
    | nil => exact (List.cons.inj h).1
    | cons y xs' =>
      obtain rfl := (List.cons.inj h).1
      exact absurd hx (hxs' x (List.mem_cons_self ..))
  | cons y xs ih =>
    cases xs' with
    | nil =>
      obtain rfl := (List.cons.inj h).1
      exact absurd hx' (hxs y (List.mem_cons_self ..))
    | cons y' xs' =>
      exact ih (List.forall_mem_cons.1 hxs).2 (List.forall_mem_cons.1 hxs').2 (List.cons.inj h).2

theorem Syntax.Tree.ofList_injective {c : SyntaxClass} :
    Function.Injective (Syntax.Tree.ofList : List (Syntax.Tree c) → _) :=
  Function.LeftInverse.injective Syntax.Tree.toList_ofList

namespace Method

theorem foreignCall_inj {function function' : String} {args args' : List Syntax.Expr}
    (h : foreignCall function args = foreignCall function' args') :
    function = function' ∧ args = args' := by
  simp only [foreignCall, Syntax.letNameStmt, Syntax.closureExpr, lockedBlock, Syntax.stmtsBlock,
    Syntax.Tree.ofList, nameExpr, Grammar.wordPathExpr, Grammar.wordPath] at h
  simp at h
  exact h.imp_right fun hargs => Syntax.Tree.ofList_injective hargs

/-- An item calls one foreign function, with its arguments. -/
theorem Calls.unique {function function' : String} {args args' : List Syntax.Expr}
    {item : Syntax.Item} (h : Calls function args item) (h' : Calls function' args' item) :
    function = function' ∧ args = args' := by
  -- Two items that are equal, since neither is told apart by its shape alone.
  obtain ⟨item', hitem, hcalls⟩ : ∃ item', item = item' ∧ Calls function' args' item' :=
    ⟨item, rfl, h'⟩
  obtain @⟨attrs, inner, generics, type, signature, before, after, hbefore⟩ := h
  obtain @⟨attrs', inner', generics', type', signature', before', after', hbefore'⟩ := hcalls
  simp only [Syntax.Tree.ofList, Syntax.stmtsBlock, Syntax.Tree.implItem.injEq,
    Syntax.Tree.cons.injEq, Syntax.Tree.fnItem.injEq, Syntax.Tree.present.injEq,
    Syntax.Tree.block.injEq, true_and, and_true] at hitem
  obtain ⟨-, -, -, -, -, hstmts⟩ := hitem
  exact foreignCall_inj (eq_of_append_cons_eq hbefore hbefore' ⟨function, args, rfl⟩
    ⟨function', args', rfl⟩ (Syntax.Tree.ofList_injective hstmts))

/-! ## Files -/

/-- A method alone is a file of one item. -/
theorem exists_item_of_fileOf_code {m : Method} (hm : m.HeadIsWhole) {file : Syntax.File}
    (h : Syntax.fileOf m.code = .ok file) :
    ∃ item, file.items = [item] ∧
      IsImplOf (Grammar.atDepth (Code.sizeOf m.code)) m.body.code item := by
  obtain ⟨⟨file', written⟩, hrun, h⟩ := bind_eq_ok_iff.1 h
  cases h
  obtain ⟨last, hread, -, -⟩ := Syntax.run_eq_ok hrun
  have hinner : Reads (Grammar.for m.code).innerAttributes m.code [] m.code :=
    Syntax.reads_innerAttributes_nil (.inl rfl)
  obtain ⟨start, hstart, -, hread⟩ := hinner.of_bind_eq_ok hread
  obtain ⟨items, ended, hitems, hfile⟩ := Syntax.Parser.bind_input_eq_ok_iff.1 hread
  cases hfile
  have hpiece : ∀ piece ∈ [m.code], piece ≠ [] ∧ ∀ {input final : Syntax.Input}
      {item : Syntax.Item} {rest : List Code.Token}, input.rest = piece ++ rest →
      (Grammar.for m.code).item input = .ok (item, final) → final.rest = rest ∧
        IsImplOf (Grammar.atDepth (Code.sizeOf m.code)) m.body.code item := by
    intro piece hpiece
    obtain rfl := List.mem_singleton.1 hpiece
    exact ⟨by simp [code, Code.word], isImplOf_of_readItem hm⟩
  obtain ⟨hforall, -⟩ := Syntax.forall₂_of_untilEnd hpiece (by simpa using hstart) hitems
  obtain ⟨item, none, hitem, hnone, rfl⟩ := List.forall₂_cons_left_iff.1 hforall
  cases hnone
  exact ⟨item, rfl, hitem⟩

/-- A method that is an item is a file. -/
theorem exists_fileOf_code {m : Method}
    (h : ∃ item, Syntax.IsItem (Code.sizeOf m.code) m.code item ∧ item.HasLayout) :
    ∃ file, Syntax.fileOf m.code = .ok file := by
  obtain ⟨item, ⟨hne, hitem⟩, -⟩ := h
  exact ⟨_, Generation.fileOf_eq_ok (List.flatten_singleton ..)
    (Syntax.reads_innerAttributes_nil (.inl rfl))
    (.cons ⟨hne, hitem _ (Nat.le_add_right _ _)⟩ .nil)⟩

theorem sizeOf_body_le (m : Method) : Code.sizeOf m.body.code + 3 ≤ Code.sizeOf m.code := by
  simp [code, signatureCode]
  omega

end Method

namespace Generation

/-- Where code is a file, each method of a directive without a sequence calls the foreign function
with the context and with one argument for each that the directive names, alone and among others. -/
theorem callsWith_of_fileOf_eq_ok {config : Config} {line : String} {d : Directive}
    {docs : List Doc} {m : Method} (hline : Directive.ofLine config line = .ok d)
    (hsingle : d.variadic = false) (hstands : ∀ foreign ∈ d.foreignArgs, Call.Stands foreign)
    (hm : Method.ofDirective config d docs = .ok m) :
    (∀ file, Syntax.fileOf m.code = .ok file →
      ∃ item, file.items = [item] ∧ Method.CallsWith config d item) ∧
    ∀ sources tokens file, unit config sources = .ok tokens → Syntax.fileOf tokens = .ok file →
      ∀ i request, (requestsOf sources)[i]? = some request → request.line = line →
        ∃ item, file.items[i + 5]? = some item ∧ Method.CallsWith config d item := by
  constructor
  · intro file hfile
    obtain ⟨item, hitems, hitem⟩ :=
      Method.exists_item_of_fileOf_code (Method.headIsWhole_of_ofDirective_eq_ok hm) hfile
    exact ⟨item, hitems,
      Method.callsWith_of_isImplOf hline hsingle hstands hm m.sizeOf_body_le hitem⟩
  · rintro sources tokens file htokens hfile i request hrequest rfl
    obtain ⟨a⟩ := nonempty_assembled htokens
    obtain ⟨start, items, hitems, hstart, hall⟩ := a.exists_items hfile
    obtain ⟨m', hm', hmethod⟩ := exists_getElem?_of_forall₂ a.methods_eq hrequest
    have hmethod := Method.ofDirective_eq_ok_of_ofLine hline hmethod
    obtain ⟨item, hitem, himpl⟩ := exists_getElem?_of_forall₂ (i := i + 2) hall hm'
    refine ⟨item, ?_, Method.callsWith_of_isImplOf hline hsingle hstands hmethod ?_ himpl⟩
    · rw [hitems, List.getElem?_append_right (by omega), ← hitem]
      congr 1
      omega
    · exact Nat.le_trans m'.sizeOf_body_le (a.sizeOf_code_le (List.mem_cons_of_mem _
        (List.mem_cons_of_mem _ (List.mem_of_getElem? hm'))))

/-- The arguments of a call with a cast and a literal. -/
theorem callsWith_of_extract_line :
    ∃ d m file item,
      Directive.ofLine {} "//wrap:expr extract x high:u32 : Z3_extract high:c_uint x \"0\"" =
        .ok d ∧
      d.variadic = false ∧ (∀ foreign ∈ d.foreignArgs, Call.Stands foreign) ∧
      Method.ofDirective {} d [] = .ok m ∧ Syntax.fileOf m.code = .ok file ∧
      file.items = [item] ∧ Method.CallsWith {} d item ∧
      ∃ tokens file item, unit {} [⟨"expr.rs",
          "//wrap:expr extract x high:u32 : Z3_extract high:c_uint x \"0\""⟩] = .ok tokens ∧
        Syntax.fileOf tokens = .ok file ∧ file.items[5]? = some item ∧
        Method.CallsWith {} d item := by
  have hd : Directive.ofLine {}
      "//wrap:expr extract x high:u32 : Z3_extract high:c_uint x \"0\"" =
      .ok ⟨"extract", "Expr", [⟨"x", "Expr", false⟩, ⟨"high", "u32", false⟩], "Z3_extract",
        [.reference "high" (some "c_uint"), .reference "x" none, .literal "0"], false, false⟩ := by
    decide +kernel
  have hplain : Directive.IsPlain
      ⟨"extract", "Expr", [⟨"x", "Expr", false⟩, ⟨"high", "u32", false⟩],
      "Z3_extract", [.reference "high" (some "c_uint"), .reference "x" none, .literal "0"], false,
      false⟩ := by
    refine ⟨saysPlainType_expr, ?_, List.forall_mem_singleton.2 saysPlainType_number,
      List.forall_mem_cons.2 ⟨.cast _ saysPlainType_foreignNumber, List.forall_mem_cons.2
        ⟨.handle _, List.forall_mem_singleton.2 (Directive.ForeignArg.isPlain_literal
          (.literal "0") (by decide +kernel))⟩⟩⟩
    rintro _ ⟨⟩
    exact withoutReference_expr ▸ saysPlainType_expr
  have hstands := fun foreign hforeign => Call.stands_of_isPlain (hplain.foreign foreign hforeign)
  obtain ⟨m, hmethod, hm⟩ := Method.exists_ofLine_eq_ok hd [] (by decide +kernel)
  obtain ⟨file, hfile⟩ := Method.exists_fileOf_code
    (Method.exists_isItem_of_ofDirective_eq_ok hplain saysPlainType_handle hm)
  have hrequests : requestsOf [⟨"expr.rs",
      "//wrap:expr extract x high:u32 : Z3_extract high:c_uint x \"0\""⟩] =
        [⟨"//wrap:expr extract x high:u32 : Z3_extract high:c_uint x \"0\"", [], "expr.rs:1"⟩] := by
    decide +kernel
  obtain ⟨tokens, htokens⟩ := exists_unit_default_eq_ok (List.cons_ne_nil _ _)
    (congrArg (List.map (·.line)) hrequests) (List.forall_mem_singleton.2 ⟨m, hmethod⟩)
  have hsources : IsPlain {} [⟨"expr.rs",
      "//wrap:expr extract x high:u32 : Z3_extract high:c_uint x \"0\""⟩] := by
    refine isPlain_default (congrArg (List.map (·.line)) hrequests)
      (List.forall_mem_singleton.2 fun d hd'' => ?_)
    cases hd.symm.trans hd''
    exact hplain
  obtain ⟨whole, -, hwhole, -⟩ := exists_fileText_of_unit_eq_ok rfl rfl hsources htokens
  obtain ⟨halone, hamong⟩ := callsWith_of_fileOf_eq_ok hd rfl hstands hm
  obtain ⟨item, hitem, hcalls⟩ := halone file hfile
  have hfirst : (requestsOf [⟨"expr.rs",
      "//wrap:expr extract x high:u32 : Z3_extract high:c_uint x \"0\""⟩])[0]? =
        some ⟨"//wrap:expr extract x high:u32 : Z3_extract high:c_uint x \"0\"", [],
          "expr.rs:1"⟩ := by
    rw [hrequests]
    rfl
  obtain ⟨item', hitem', hcalls'⟩ := hamong _ tokens whole htokens hwhole 0 _ hfirst rfl
  exact ⟨_, m, file, item, hd, rfl, hstands, hm, hfile, hitem, hcalls, tokens, whole, item',
    htokens,
    hwhole, hitem', hcalls'⟩

/-- A literal that is two expressions is two arguments. -/
theorem exists_calls_with_two_arguments_of_literal :
    ∃ d m file item, Directive.ofLine {} "//wrap:expr f Z3_f x \"1, 2\"" = .ok d ∧
      d.variadic = false ∧ Method.ofDirective {} d [] = .ok m ∧
      Syntax.fileOf m.code = .ok file ∧ file.items = [item] ∧ d.foreignArgs.length = 2 ∧
      (∃ function args, Method.Calls function args item) ∧
      ∀ function args, Method.Calls function args item → args.length = 4 := by
  have hd : Directive.ofLine {} "//wrap:expr f Z3_f x \"1, 2\"" =
      .ok ⟨"f", "Expr", [⟨"x", "Expr", false⟩], "Z3_f",
        [.reference "x" none, .literal "1, 2"], false, true⟩ := by decide +kernel
  have hapart : Directive.ofLine {} "//wrap:expr f Z3_f x \"1\" \"2\"" =
      .ok ⟨"f", "Expr", [⟨"x", "Expr", false⟩], "Z3_f",
        [.reference "x" none, .literal "1", .literal "2"], false, true⟩ := by decide +kernel
  have hplain : Directive.IsPlain ⟨"f", "Expr", [⟨"x", "Expr", false⟩], "Z3_f",
      [.reference "x" none, .literal "1", .literal "2"], false, true⟩ := by
    refine ⟨saysPlainType_expr, ?_, List.forall_mem_nil _, List.forall_mem_cons.2 ⟨.handle _,
      List.forall_mem_cons.2 ⟨Directive.ForeignArg.isPlain_literal (.literal "1")
        (by decide +kernel), List.forall_mem_singleton.2
      (Directive.ForeignArg.isPlain_literal (.literal "2") (by decide +kernel))⟩⟩⟩
    rintro _ ⟨⟩
    exact withoutReference_expr ▸ saysPlainType_expr
  obtain ⟨m', hline', hm'⟩ := Method.exists_ofLine_eq_ok hapart [] (by decide +kernel)
  -- The code is the same as that of a line with a literal for each of the two.
  have hsame : (Method.ofLine {} "//wrap:expr f Z3_f x \"1, 2\"" []).toOption.map (·.code) =
      (Method.ofLine {} "//wrap:expr f Z3_f x \"1\" \"2\"" []).toOption.map (·.code) := by
    decide +kernel
  rw [hline'] at hsame
  obtain ⟨m, hline, hcode : m.code = m'.code⟩ := toOption_map_eq_some_iff.1 hsame
  have hm := Method.ofDirective_eq_ok_of_ofLine hd hline
  obtain ⟨file, hfile⟩ := Method.exists_fileOf_code
    (Method.exists_isItem_of_ofDirective_eq_ok hplain saysPlainType_handle hm')
  obtain ⟨item, hitem, himpl⟩ :=
    Method.exists_item_of_fileOf_code (Method.headIsWhole_of_ofDirective_eq_ok hm') hfile
  obtain ⟨function, args, -, hargs, hcalls⟩ := Method.callsWith_of_isImplOf hapart rfl
    (fun foreign hforeign => Call.stands_of_isPlain (hplain.foreign foreign hforeign)) hm'
    m'.sizeOf_body_le himpl
  rw [← hcode] at hfile
  refine ⟨_, m, file, item, hd, rfl, hm, hfile, hitem, rfl, ⟨function, _, hcalls⟩,
    fun function' args' hcalls' => ?_⟩
  rw [(hcalls'.unique hcalls).2, List.length_cons, ← hargs.length_eq]
  rfl

end Generation

end ForeignWrap
