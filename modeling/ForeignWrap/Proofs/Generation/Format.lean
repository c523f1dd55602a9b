import ForeignWrap.Proofs.Generation.Pieces
import ForeignWrap.Proofs.Generation.Unit
import ForeignWrap.Proofs.Layout.File
import ForeignWrap.Proofs.Method.Head
import ForeignWrap.Proofs.Syntax.Import

/-!
# Code from pieces that are code

Names and types that are code one by one make up a file that is code and has a layout, if the types
are plain and that of expressions is a path without arguments. Then generation does not fail for its
format: once its code is put together it has a text.

## Main definitions

* `ForeignWrap.Generation.IsPlain`: a configuration and sources with plain types.
* `ForeignWrap.Generation.generate_ne_format`: what they are generated to is code.
-/

namespace ForeignWrap.Generation

open Code (Token op word brackets braces parens)
open Syntax (Grammar Written SaysPlainType)
open Syntax.Parser (CollectsIn Reads endStep reads_endStep reads_endStep_none reads_untilEnd)

/-! ## Reading a file -/

/-- Pieces that are read one by one are read one after another. -/
theorem collectsIn_pieces {α : Type} {p : Syntax.Parser α} {pieces : List (List Token)}
    {items : List α}
    (h : List.Forall₂ (fun piece a => piece ≠ [] ∧ ∀ rest, Reads p (piece ++ rest) a rest) pieces
      items) : CollectsIn (endStep p) pieces.flatten items [] := by
  induction h with
  | nil => exact .done (reads_endStep_none _)
  | @cons piece a pieces items hpiece _ ih =>
    rw [List.flatten_cons]
    refine .more (reads_endStep (by simp [hpiece.1]) (hpiece.2 _)) ?_ ih
    simpa using List.length_pos_of_ne_nil hpiece.1

theorem sizeOf_le_sizeOf_flatten {piece : List Token} {pieces : List (List Token)}
    (h : piece ∈ pieces) : Code.sizeOf piece ≤ Code.sizeOf pieces.flatten := by
  obtain ⟨before, after, rfl⟩ := List.append_of_mem h
  simp [List.flatten_append, List.flatten_cons]
  omega

/-- Tokens that are read up to the end are read as a whole. -/
theorem exists_run_eq_ok {α : Type} {p : Syntax.Parser α} {tokens : List Token} {a : α}
    (h : Reads p tokens a []) : ∃ written, Syntax.Parser.run p tokens = .ok (a, written) := by
  obtain ⟨written, h⟩ := h
  exact ⟨_, bind_eq_ok_iff.2 ⟨_, h [] none, rfl⟩⟩

/-- Tokens that are read one by one as items make up a file. -/
theorem fileOf_eq_ok {tokens : List Token} {pieces : List (List Token)}
    {items : List Syntax.Item} (htokens : pieces.flatten = tokens)
    (hinner : Reads (Grammar.for tokens).innerAttributes tokens [] tokens)
    (hitems : List.Forall₂ (fun piece item => piece ≠ [] ∧
      ∀ rest, Reads (Grammar.for tokens).item (piece ++ rest) item rest) pieces items) :
    Syntax.fileOf tokens = .ok ⟨[], items, Code.sizeOf tokens⟩ := by
  have hread := reads_untilEnd (collectsIn_pieces hitems)
  rw [htokens] at hread
  have hfile : Reads (do
      let attrs ← (Grammar.for tokens).innerAttributes
      let items ← Syntax.Parser.untilEnd (Grammar.for tokens).item
      return (⟨attrs, items, Code.sizeOf tokens⟩ : Syntax.File)) tokens
      ⟨[], items, Code.sizeOf tokens⟩ [] := hinner.bind (hread.bind (Syntax.Parser.reads_pure _ _))
  obtain ⟨written, hrun⟩ := exists_run_eq_ok hfile
  exact bind_eq_ok_iff.2 ⟨_, hrun, rfl⟩

/-! ## What begins a file -/

/-- The path of the library that the methods call, if none is given. -/
theorem tokens_of_pathOf_crate {path : Written .path} (h : Syntax.pathOf "crate" = .ok path) :
    path.tokens = word "crate" := by
  have htokens : (Syntax.pathOf "crate").toOption.map (·.tokens) = some (word "crate") := by
    decide +kernel
  rw [h] at htokens
  exact Option.some.inj htokens

/-- The path of the foreign functions, if none is given. -/
theorem tokens_of_pathOf_sys {path : Written .path} (h : Syntax.pathOf "z3wrap_sys" = .ok path) :
    path.tokens = word "z3wrap_sys" := by
  have htokens : (Syntax.pathOf "z3wrap_sys").toOption.map (·.tokens) =
      some (word "z3wrap_sys") := by
    decide +kernel
  rw [h] at htokens
  exact Option.some.inj htokens

/-- The block for the foreign library is an item. -/
theorem exists_isItem_foreignCode (config : Config) :
    ∃ item, Syntax.IsItem 1 (foreignCode config) item ∧ item.HasLayout := by
  have hname : Syntax.isName "link" = true := by decide
  obtain ⟨attr, hlayout, hlink⟩ : ∃ attr, Syntax.Tree.HasLayout attr ∧
      ∀ g : Grammar, g.IsAttribute (linkContent config) attr := by
    refine ⟨_, ?_, fun g => g.isAttribute_list _ hname⟩
    exact trivial
  refine ⟨Grammar.foreignItem [attr], ⟨by simp [foreignCode, op, Code.opSigns],
    fun d hd rest => ?_⟩, ⟨hlayout, trivial⟩, trivial⟩
  obtain ⟨d, rfl⟩ := Nat.exists_eq_add_one.2 hd
  have hcode : foreignCode config ++ rest = op "#" ++ brackets (linkContent config) ++
      (word "unsafe" ++ (word "extern" ++ (.literal "\"C\"" :: (braces [] ++ rest)))) := by
    simp only [foreignCode, List.append_assoc, List.cons_append]
  rw [hcode]
  exact (Grammar.atDepth d).reads_readItem_foreign (hlink _)

/-- The import of all that a path of words holds is an item. -/
theorem exists_isItem_importAll {words : List String}
    (hwords : ∀ text ∈ words, Syntax.IsUseWord text)
    {path : List Token} (hpath : path ++ op "::" = Syntax.usePathCode words) :
    ∃ item, Syntax.IsItem 1 (importAll path) item ∧ item.HasLayout := by
  have hname : Syntax.isName "allow" = true := by decide
  obtain ⟨attr, hlayout, hallow⟩ : ∃ attr, Syntax.Tree.HasLayout attr ∧
      ∀ g : Grammar, g.IsAttribute allowContent attr := by
    refine ⟨_, ?_, fun g => g.isAttribute_list _ hname⟩
    exact trivial
  refine ⟨Grammar.useAllItem [attr] words,
    ⟨by simp [importAll, attributeCode, op, Code.opSigns], fun d hd rest => ?_⟩, hlayout, trivial⟩
  obtain ⟨d, rfl⟩ := Nat.exists_eq_add_one.2 hd
  have hcode : importAll path ++ rest = op "#" ++ brackets allowContent ++
      (word "use" ++ (Syntax.usePathCode words ++ (op "*" ++ (op ";" ++ rest)))) := by
    simp only [importAll, attributeCode, allowContent, ← hpath, List.append_assoc]
  rw [hcode]
  exact (Grammar.atDepth d).reads_readItem_useAll (hallow _) hwords

/-! ## Files of plain types -/

/-- Every type that is asked for is plain, and that of expressions is a path of words. -/
structure IsPlain (config : Config) (sources : List Source) : Prop where
  defaultType : SaysPlainType config.defaultType
  boolType : SaysPlainType config.boolType
  exprType : SaysPlainType config.exprType
  exprPath : ∀ written, Syntax.typeOf config.exprType = .ok written →
    Method.isPlainPath written.tree = true
  handleType : SaysPlainType config.handleType
  directives : ∀ line ∈ Method.equalLine config :: (requestsOf sources).map (·.line), ∀ d,
    Directive.ofLine config line = .ok d → d.IsPlain

namespace Assembled

variable {config : Config} {sources : List Source} {tokens : List Token}
  (a : Assembled config sources tokens)

theorem sizeOf_code_le {m : Method} (h : m ∈ a.all) : Code.sizeOf m.code ≤ Code.sizeOf tokens :=
  a.flatten_pieces ▸ sizeOf_le_sizeOf_flatten (List.mem_cons_of_mem _ (List.mem_cons_of_mem _
    (List.mem_cons_of_mem _ (List.mem_map_of_mem h))))

/-- Each method of plain types is an item. -/
theorem exists_isItem_of_mem (hplain : IsPlain config sources) {m : Method} (h : m ∈ a.all) :
    ∃ item, Syntax.IsItem (Code.sizeOf m.code) m.code item ∧ item.HasLayout := by
  have hofLine : ∀ {line docs m},
      line ∈ Method.equalLine config :: (requestsOf sources).map (·.line) →
      Method.ofLine config line docs = .ok m →
      ∃ item, Syntax.IsItem (Code.sizeOf m.code) m.code item ∧ item.HasLayout := by
    intro line docs m hline hm
    obtain ⟨d, hd, hm⟩ := bind_eq_ok_iff.1 hm
    exact Method.exists_isItem_of_ofDirective_eq_ok (hplain.directives line hline d hd)
      hplain.handleType hm
  obtain rfl | h := List.mem_cons.1 h
  · exact hofLine (List.mem_cons_self ..) a.equal_eq
  obtain rfl | h := List.mem_cons.1 h
  · exact Method.exists_isItem_of_notEqual_eq_ok hplain.defaultType hplain.boolType hplain.exprType
      hplain.exprPath a.notEqual_eq
  · have hmethods : ∀ m ∈ a.methods, ∃ request ∈ requestsOf sources,
        methodOf config request = .ok m :=
      forall_mem_of_forall₂ ((List.forall₂_and_left _ _).2
        ⟨fun request hrequest => hrequest, a.methods_eq⟩).flip fun _ request hm => ⟨request, hm⟩
    obtain ⟨request, hrequest, hm⟩ := hmethods m h
    exact hofLine (List.mem_cons_of_mem _ (List.mem_map_of_mem hrequest)) hm

/-- Each piece is an item, if the methods are and the imports are those that are made if none is
given. -/
theorem exists_isItem_of_mem_pieces (hruntime : config.runtimePath = "crate")
    (hsys : config.sysPath = "z3wrap_sys")
    (hall : ∀ m ∈ a.all, ∃ item, Syntax.IsItem (Code.sizeOf m.code) m.code item ∧ item.HasLayout)
    {piece : List Token} (h : piece ∈ a.pieces) :
    ∃ item, Syntax.IsItem (Code.sizeOf tokens + 1) piece item ∧ item.HasLayout := by
  have hmono : ∀ {depth : Nat}, depth ≤ Code.sizeOf tokens + 1 →
      (∃ item, Syntax.IsItem depth piece item ∧ item.HasLayout) →
      ∃ item, Syntax.IsItem (Code.sizeOf tokens + 1) piece item ∧ item.HasLayout := by
    rintro depth hdepth ⟨item, ⟨hne, hitem⟩, hlayout⟩
    exact ⟨item, ⟨hne, fun d hd => hitem d (Nat.le_trans hdepth hd)⟩, hlayout⟩
  have hsize := a.flatten_pieces ▸ sizeOf_le_sizeOf_flatten h
  obtain rfl | h := List.mem_cons.1 h
  · exact hmono (Nat.le_add_left _ _) (exists_isItem_foreignCode config)
  obtain rfl | h := List.mem_cons.1 h
  · have hpath : a.runtime.tokens ++ op "::" ++ word "prelude" ++ op "::" =
        Syntax.usePathCode ["crate", "prelude"] := by
      rw [tokens_of_pathOf_crate (hruntime ▸ a.runtime_eq)]
      rfl
    have hprelude : Syntax.isName "prelude" = true := by decide
    exact hmono (Nat.le_add_left _ _) (exists_isItem_importAll
      (List.forall_mem_cons.2 ⟨.inr rfl, List.forall_mem_singleton.2 (.inl hprelude)⟩) hpath)
  obtain rfl | h := List.mem_cons.1 h
  · have hpath : a.sys.tokens ++ op "::" = Syntax.usePathCode ["z3wrap_sys"] := by
      rw [tokens_of_pathOf_sys (hsys ▸ a.sys_eq)]
      rfl
    have hname : Syntax.isName "z3wrap_sys" = true := by decide
    exact hmono (Nat.le_add_left _ _)
      (exists_isItem_importAll (List.forall_mem_singleton.2 (.inl hname)) hpath)
  obtain ⟨m, hm, rfl⟩ := List.mem_map.1 h
  exact hmono (Nat.le_succ_of_le hsize) (hall m hm)

/-- Pieces that are items make up a file, which has a text if they have a layout. -/
theorem exists_fileText_eq_ok (hitems : ∀ piece ∈ a.pieces,
      ∃ item, Syntax.IsItem (Code.sizeOf tokens + 1) piece item ∧ item.HasLayout) :
    ∃ file text, Syntax.fileOf tokens = .ok file ∧ Layout.fileText file = .ok text := by
  obtain ⟨items, hitems⟩ := exists_forall₂ hitems
  have hfile := fileOf_eq_ok a.flatten_pieces (a.reads_innerAttributes _)
    (hitems.imp fun piece item h => ⟨h.1.1, h.1.2 _ (Nat.le_succ _)⟩)
  have hlayout : ∀ item ∈ items, item.HasLayout :=
    forall_mem_of_forall₂ hitems.flip fun _ _ h => h.2
  obtain ⟨text, htext⟩ : ∃ text, Layout.fileText ⟨[], items, Code.sizeOf tokens⟩ = .ok text :=
    Layout.exists_fileText_eq_ok (List.forall_mem_nil _) hlayout
  exact ⟨_, text, hfile, htext⟩

end Assembled

theorem located_ne_format {α : Type} {location raw : String} {cause : Syntax.SyntaxError}
    (result : Except Directive.Error α) : located location result ≠ .error (.format raw cause) := by
  cases result <;> simp [located, Except.mapError]

/-- What is no code is only told apart once all methods are there. -/
theorem unit_ne_format {config : Config} {sources : List Source} (raw : String)
    (cause : Syntax.SyntaxError) : unit config sources ≠ .error (.format raw cause) := by
  intro h
  unfold unit at h
  split at h
  · cases h
  obtain h | ⟨start, -, h⟩ := bind_eq_error_iff.1 h
  · exact located_ne_format _ h
  obtain h | ⟨methods, -, h⟩ := bind_eq_error_iff.1 h
  · obtain ⟨-, request, -, -, -, h⟩ := mapM_eq_error_iff.1 h
    exact located_ne_format _ h
  · cases h

theorem exists_fileText_of_unit_eq_ok {config : Config} {sources : List Source}
    {tokens : List Token} (hruntime : config.runtimePath = "crate")
    (hsys : config.sysPath = "z3wrap_sys") (hplain : IsPlain config sources)
    (h : unit config sources = .ok tokens) :
    ∃ file text, Syntax.fileOf tokens = .ok file ∧ Layout.fileText file = .ok text := by
  obtain ⟨a⟩ := nonempty_assembled h
  exact a.exists_fileText_eq_ok fun piece => a.exists_isItem_of_mem_pieces hruntime hsys
    fun m => a.exists_isItem_of_mem hplain

/-- What plain types are generated to is code, and is written: generation never fails for its
format, and answers code wherever the code is put together. -/
theorem generate_ne_format {config : Config} {sources : List Source}
    (hruntime : config.runtimePath = "crate") (hsys : config.sysPath = "z3wrap_sys")
    (hplain : IsPlain config sources) :
    (∀ tokens, unit config sources = .ok tokens → ∃ file, Syntax.fileOf tokens = .ok file) ∧
      (∀ tokens, unit config sources = .ok tokens → ∃ code, generate config sources = .ok code) ∧
      ∀ raw cause, generate config sources ≠ .error (.format raw cause) := by
  have hfile : ∀ tokens, unit config sources = .ok tokens →
      ∃ file text, Syntax.fileOf tokens = .ok file ∧ Layout.fileText file = .ok text :=
    fun tokens => exists_fileText_of_unit_eq_ok hruntime hsys hplain
  have hcode : ∀ tokens, unit config sources = .ok tokens → ∃ code, format tokens = .ok code := by
    intro tokens htokens
    obtain ⟨file, text, hfile, htext⟩ := hfile tokens htokens
    exact ⟨generatedHeader ++ "\n\n" ++ text, by simp only [format, hfile, htext]⟩
  refine ⟨fun tokens htokens => ?_, fun tokens htokens => ?_, fun raw cause h => ?_⟩
  · obtain ⟨file, -, hfile, -⟩ := hfile tokens htokens
    exact ⟨file, hfile⟩
  · obtain ⟨code, hcode⟩ := hcode tokens htokens
    exact ⟨code, bind_eq_ok_iff.2 ⟨tokens, htokens, hcode⟩⟩
  · obtain h | ⟨tokens, htokens, h⟩ := bind_eq_error_iff.1 h
    · exact unit_ne_format raw cause h
    · obtain ⟨code, hcode⟩ := hcode tokens htokens
      rw [hcode] at h
      cases h

/-! ## The default configuration -/

/-- A word is a plain type, if it is read as one. -/
theorem saysPlainType_word {text : String} (hname : Syntax.isName text = true)
    (hcode : (Syntax.tokensOf text).toOption = some (word text))
    (hwritten : (Syntax.typeOf text).toOption.map (·.tokens) = some (word text)) :
    SaysPlainType text :=
  Syntax.saysPlainType_of_tokensOf (.path false ⟨text, .inl hname⟩ []) hcode hwritten

theorem saysPlainType_expr : SaysPlainType "Expr" :=
  saysPlainType_word (by decide) (by decide +kernel) (by decide +kernel)

theorem saysPlainType_handle : SaysPlainType ({} : Config).handleType :=
  saysPlainType_word (by decide : Syntax.isName "Z3_ast" = true) (by decide +kernel)
    (by decide +kernel)

theorem saysPlainType_number : SaysPlainType "u32" :=
  saysPlainType_word (by decide) (by decide +kernel) (by decide +kernel)

theorem saysPlainType_foreignNumber : SaysPlainType "c_uint" :=
  saysPlainType_word (by decide) (by decide +kernel) (by decide +kernel)

theorem withoutReference_expr : withoutReference "Expr" = "Expr" := by
  decide +kernel

/-- The types of the default configuration are plain. -/
theorem isPlain_default {sources : List Source} {lines : List String}
    (hlines : (requestsOf sources).map (·.line) = lines)
    (h : ∀ line ∈ lines, ∀ d, Directive.ofLine {} line = .ok d → d.IsPlain) :
    IsPlain {} sources := by
  have hbool : SaysPlainType "Bool" :=
    saysPlainType_word (by decide) (by decide +kernel) (by decide +kernel)
  have hpath : (Syntax.typeOf "Expr").toOption.map (Method.isPlainPath ·.tree) = some true := by
    decide +kernel
  have hequal : Directive.ofLine {} (Method.equalLine {}) =
      .ok ⟨"eq", "Bool", [⟨"l", "Expr", false⟩, ⟨"r", "Expr", false⟩], "Z3_mk_eq",
        [.reference "l" none, .reference "r" none], false, true⟩ := by decide +kernel
  refine ⟨saysPlainType_expr, hbool, saysPlainType_expr, ?_, saysPlainType_handle, ?_⟩
  · intro written hwritten
    rw [hwritten] at hpath
    exact Option.some.inj hpath
  · rw [hlines]
    refine List.forall_mem_cons.2 ⟨fun d hd => ?_, h⟩
    cases hequal.symm.trans hd
    refine ⟨hbool, ?_, List.forall_mem_singleton.2 saysPlainType_expr,
      List.forall_mem_cons.2 ⟨.handle _, List.forall_mem_singleton.2 (.handle _)⟩⟩
    rintro _ ⟨⟩
    exact withoutReference_expr ▸ saysPlainType_expr

/-- A method with a cast, and those for equality. -/
theorem exists_fileOf_of_extract_line :
    ∃ tokens file code, unit {} [⟨"expr.rs",
      "//wrap:expr extract x high:u32 : Z3_extract x high:c_uint"⟩] = .ok tokens ∧
      Syntax.fileOf tokens = .ok file ∧ generate {} [⟨"expr.rs",
      "//wrap:expr extract x high:u32 : Z3_extract x high:c_uint"⟩] = .ok code := by
  have hextract : Directive.ofLine {} "//wrap:expr extract x high:u32 : Z3_extract x high:c_uint" =
      .ok ⟨"extract", "Expr", [⟨"x", "Expr", false⟩, ⟨"high", "u32", false⟩], "Z3_extract",
        [.reference "x" none, .reference "high" (some "c_uint")], false, false⟩ := by
    decide +kernel
  obtain ⟨m, hmethod, -⟩ := Method.exists_ofLine_eq_ok hextract [] (by decide +kernel)
  have hlines : (requestsOf [⟨"expr.rs",
      "//wrap:expr extract x high:u32 : Z3_extract x high:c_uint"⟩]).map (·.line) =
        ["//wrap:expr extract x high:u32 : Z3_extract x high:c_uint"] := by decide +kernel
  have hplain : IsPlain {} [⟨"expr.rs",
      "//wrap:expr extract x high:u32 : Z3_extract x high:c_uint"⟩] := by
    refine isPlain_default hlines (List.forall_mem_singleton.2 fun d hd => ?_)
    cases hextract.symm.trans hd
    refine ⟨saysPlainType_expr, ?_, List.forall_mem_singleton.2 saysPlainType_number,
      List.forall_mem_cons.2 ⟨.handle _,
        List.forall_mem_singleton.2 (.cast _ saysPlainType_foreignNumber)⟩⟩
    rintro _ ⟨⟩
    exact withoutReference_expr ▸ saysPlainType_expr
  obtain ⟨tokens, htokens⟩ := exists_unit_default_eq_ok (List.cons_ne_nil _ _) hlines
    (List.forall_mem_singleton.2 ⟨m, hmethod⟩)
  obtain ⟨hfiles, hcodes, -⟩ := generate_ne_format rfl rfl hplain
  obtain ⟨file, hfile⟩ := hfiles tokens htokens
  obtain ⟨code, hcode⟩ := hcodes tokens htokens
  exact ⟨tokens, file, code, htokens, hfile, hcode⟩

/-! ## A type with arguments -/

/-- The method that tells values apart makes them expressions. -/
theorem exists_body_of_notEqual_eq_ok {config : Config} {m : Method}
    (h : Method.notEqual config = .ok m) :
    ∃ written, Syntax.typeOf config.exprType = .ok written ∧
      m.body = .distinct written.tokens "r" := by
  simp only [Method.notEqual, bind_eq_ok_iff] at h
  obtain ⟨selfType, -, boolType, -, exprType, hexprType, h⟩ := h
  exact ⟨exprType, mapError_eq_ok_iff.1 hexprType, congrArg Method.body (Except.ok.inj h).symm⟩

set_option maxRecDepth 20000 in
/-- An expression does not go on after a type with arguments. -/
theorem stmts_distinct_eq_error (taken : List Token) (leftover : Option Code.Delimiter) :
    ((Grammar.atDepth 184).stmts ⟨(Method.Body.distinct
      (word "Seq" ++ op "<" ++ word "Int" ++ op ">") "r").code, taken, leftover⟩).toBool =
        false := by
  rfl

/-- The type of expressions has arguments: it is a type, but the method that tells values apart is
no code. -/
theorem exists_generate_eq_error_format :
    ∃ raw cause, requestsOf [⟨"a.rs", ""⟩] = [] ∧
      (unit { exprType := "Seq<Int>" } [⟨"a.rs", ""⟩]).toBool = true ∧
      generate { exprType := "Seq<Int>" } [⟨"a.rs", ""⟩] = .error (.format raw cause) := by
  have hsize : (unit { exprType := "Seq<Int>" } [⟨"a.rs", ""⟩]).toOption.map Code.sizeOf =
      some 184 := by decide +kernel
  have htype : (Syntax.typeOf "Seq<Int>").toOption.map (·.tokens) =
      some (word "Seq" ++ op "<" ++ word "Int" ++ op ">") := by decide +kernel
  obtain ⟨tokens, htokens, hsize⟩ := toOption_map_eq_some_iff.1 hsize
  have hunit : (unit { exprType := "Seq<Int>" } [⟨"a.rs", ""⟩]).toBool = true := by
    rw [htokens]
    rfl
  cases hfile : Syntax.fileOf tokens with
  | error cause =>
    refine ⟨Code.text tokens, cause, by decide +kernel, hunit,
      bind_eq_error_iff.2 (.inr ⟨tokens, htokens, ?_⟩)⟩
    simp only [format, hfile]
  | ok file =>
    exfalso
    obtain ⟨a⟩ := nonempty_assembled htokens
    obtain ⟨start, items, -, -, hitems⟩ := a.exists_items hfile
    have hall : ∀ m ∈ a.all, ∃ item,
        Syntax.IsImplOf (Grammar.atDepth (Code.sizeOf tokens)) m.body.code item :=
      forall_mem_of_forall₂ hitems fun _ item hitem => ⟨item, hitem⟩
    obtain ⟨written, hwritten, hbody⟩ := exists_body_of_notEqual_eq_ok a.notEqual_eq
    rw [hwritten] at htype
    have htype : written.tokens = word "Seq" ++ op "<" ++ word "Int" ++ op ">" :=
      Option.some.inj htype
    obtain ⟨item, hitem⟩ := hall a.notEqual (by simp [Assembled.all])
    rw [hsize, hbody, htype] at hitem
    obtain @⟨attrs, inner, generics, type, signature, stmts, input, last, hinput, hstmts⟩ := hitem
    have hfails := stmts_distinct_eq_error input.taken input.leftover
    rw [← hinput, hstmts] at hfails
    cases hfails

end ForeignWrap.Generation
