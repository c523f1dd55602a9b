import ForeignWrap.Generation.Basic
import ForeignWrap.Proofs.Method.Item
import ForeignWrap.Proofs.Syntax.Use

/-!
# A generated file piece by piece

The file for some sources is put together from pieces: three that begin it and one for each method.
Where it is code, each piece is one item of it.

## Main definitions

* `ForeignWrap.Generation.Assembled`: a file and what it is put together from.
* `ForeignWrap.Generation.Assembled.exists_items`: each method is read as an item of its own.
-/

namespace ForeignWrap.Generation

open Code (Token op word braces parens)
open Syntax (Grammar IsImplOf Written)
open Syntax.Parser (Reads)

/-! ## Pieces -/

/-- The attribute that names the library that is linked. -/
def linkContent (config : Config) : List Token :=
  word "link" ++ parens (word "name" ++ (op "=" ++ [.literal (Text.stringLiteral config.linkName)]))

/-- The attribute of an import that need not be used. -/
def allowContent : List Token :=
  word "allow" ++ parens (word "unused_imports")

/-- The block for the foreign library. -/
def foreignCode (config : Config) : List Token :=
  op "#" ++ Code.brackets (linkContent config) ++
    (word "unsafe" ++ (word "extern" ++ (.literal "\"C\"" :: braces [])))

/-- What the file for some sources is put together from: the paths of the imports, the methods for
equality and those of the directives. -/
structure Assembled (config : Config) (sources : List Source) (tokens : List Token) where
  runtime : Written .path
  sys : Written .path
  equal : Method
  notEqual : Method
  methods : List Method
  runtime_eq : Syntax.pathOf config.runtimePath = .ok runtime
  sys_eq : Syntax.pathOf config.sysPath = .ok sys
  equal_eq : Method.equal config = .ok equal
  notEqual_eq : Method.notEqual config = .ok notEqual
  methods_eq : List.Forall₂ (fun request m => methodOf config request = .ok m) (requestsOf sources)
    methods
  tokens_eq : tokens = foreignCode config ++
    importAll (runtime.tokens ++ op "::" ++ word "prelude") ++
    importAll sys.tokens ++ (equal :: notEqual :: methods).flatMap (·.code)

theorem nonempty_assembled {config : Config} {sources : List Source} {tokens : List Token}
    (h : unit config sources = .ok tokens) : Nonempty (Assembled config sources tokens) := by
  unfold unit at h
  split at h
  · cases h
  obtain ⟨start, hstart, h⟩ := bind_eq_ok_iff.1 h
  obtain ⟨methods, hmethods, h⟩ := bind_eq_ok_iff.1 h
  cases h
  obtain ⟨prologueCode, hprologue, hstart⟩ := bind_eq_ok_iff.1 (mapError_eq_ok_iff.1 hstart)
  obtain ⟨common, hcommon, hstart⟩ := bind_eq_ok_iff.1 hstart
  cases hstart
  obtain ⟨equal, hequal, hcommon⟩ := bind_eq_ok_iff.1 hcommon
  obtain ⟨notEqual, hnotEqual, hcommon⟩ := bind_eq_ok_iff.1 hcommon
  cases hcommon
  obtain ⟨runtime, hruntime, hprologue⟩ := bind_eq_ok_iff.1 hprologue
  obtain ⟨sys, hsys, hprologue⟩ := bind_eq_ok_iff.1 hprologue
  cases hprologue
  obtain ⟨runtimePath, hruntimePath, rfl⟩ := map_eq_ok_iff.1 hruntime
  obtain ⟨sysPath, hsysPath, rfl⟩ := map_eq_ok_iff.1 hsys
  have hmethods := (mapM_eq_ok_iff.1 hmethods).imp fun _ _ => mapError_eq_ok_iff.1
  refine ⟨⟨runtimePath, sysPath, equal, notEqual, methods, mapError_eq_ok_iff.1 hruntimePath,
    mapError_eq_ok_iff.1 hsysPath, hequal, hnotEqual, hmethods, ?_⟩⟩
  simp only [foreignCode, linkContent, attributeCode, List.flatMap_cons, List.flatMap_nil,
    List.append_nil, List.append_assoc]
  rfl

namespace Assembled

variable {config : Config} {sources : List Source} {tokens : List Token}
  (a : Assembled config sources tokens)

/-- The methods of the file. -/
def all : List Method :=
  a.equal :: a.notEqual :: a.methods

/-- The pieces, each of which is one item. -/
def pieces : List (List Token) :=
  foreignCode config :: importAll (a.runtime.tokens ++ op "::" ++ word "prelude") ::
    importAll a.sys.tokens :: a.all.map (·.code)

theorem flatten_pieces : a.pieces.flatten = tokens := by
  refine Eq.trans ?_ a.tokens_eq.symm
  simp only [pieces, List.flatten_cons, ← List.flatMap_def, List.append_assoc, all]

/-- Each method is that of a directive, or tells values apart. -/
theorem headIsWhole_of_mem {m : Method} (h : m ∈ a.all) : m.HeadIsWhole := by
  have hofLine : ∀ {line docs m}, Method.ofLine config line docs = .ok m → m.HeadIsWhole := by
    intro line docs m hm
    obtain ⟨d, -, hm⟩ := bind_eq_ok_iff.1 hm
    exact Method.headIsWhole_of_ofDirective_eq_ok hm
  obtain rfl | h := List.mem_cons.1 h
  · exact hofLine a.equal_eq
  obtain rfl | h := List.mem_cons.1 h
  · exact Method.headIsWhole_of_notEqual_eq_ok a.notEqual_eq
  · exact forall_mem_of_forall₂ a.methods_eq.flip (fun _ _ hm => hofLine hm) m h

/-! ## Items -/

/-- An import of a path without semicolons is read up to its end. -/
theorem rest_of_importAll {g : Grammar} {input final : Syntax.Input} {path rest : List Token}
    {item : Syntax.Item} (hpath : ∀ joint, .sign ';' joint ∉ path)
    (hrest : input.rest = importAll path ++ rest) (h : g.readItem input = .ok (item, final)) :
    final.rest = rest := by
  have hrest : input.rest = [allowContent].flatMap (op "#" ++ Code.brackets ·) ++
      (word "use" ++ ((path ++ (op "::" ++ op "*")) ++ (op ";" ++ rest))) := by
    rw [hrest, List.flatMap_singleton]
    simp only [importAll, attributeCode, allowContent, List.append_assoc]
  obtain ⟨attrs, start, found, last, hstart, hafter, hlast⟩ :=
    Syntax.exists_itemAfter?_of_readItem hrest rfl h
  refine hlast.trans (Syntax.rest_of_useItem ?_ hstart hafter)
  intro joint hmem
  obtain hmem | hmem := List.mem_append.1 hmem
  · exact hpath joint hmem
  · simp [op, Code.opSigns] at hmem

theorem rest_of_foreignCode {g : Grammar} {input final : Syntax.Input} {rest : List Token}
    {item : Syntax.Item} (hrest : input.rest = foreignCode config ++ rest)
    (h : g.readItem input = .ok (item, final)) : final.rest = rest := by
  have hrest : input.rest = [linkContent config].flatMap (op "#" ++ Code.brackets ·) ++
      (word "unsafe" ++ (word "extern" ++ (.literal "\"C\"" :: (braces [] ++ rest)))) := by
    rw [hrest, List.flatMap_singleton]
    simp only [foreignCode, List.append_assoc, List.cons_append]
  obtain ⟨attrs, start, found, last, hstart, hafter, hlast⟩ :=
    Syntax.exists_itemAfter?_of_readItem hrest rfl h
  exact hlast.trans (Syntax.rest_of_externBlock hstart hafter)

/-- An item is read up to the end of its piece. -/
theorem rest_of_mem_pieces {depth : Nat} {piece : List Token} (hpiece : piece ∈ a.pieces) :
    piece ≠ [] ∧ ∀ {input final : Syntax.Input} {item : Syntax.Item} {rest : List Token},
      input.rest = piece ++ rest →
      (Grammar.atDepth (depth + 1)).readItem input = .ok (item, final) →
      final.rest = rest := by
  have hcolons : ∀ joint, (.sign ';' joint : Token) ∉ op "::" ++ word "prelude" := by
    simp [op, Code.opSigns, word]
  obtain rfl | hpiece := List.mem_cons.1 hpiece
  · exact ⟨by simp [foreignCode], rest_of_foreignCode⟩
  obtain rfl | hpiece := List.mem_cons.1 hpiece
  · refine ⟨by simp [importAll, word], rest_of_importAll fun joint hmem => ?_⟩
    rw [List.append_assoc] at hmem
    exact (List.mem_append.1 hmem).elim (Syntax.not_mem_semicolon_of_pathOf a.runtime_eq joint)
      (hcolons joint)
  obtain rfl | hpiece := List.mem_cons.1 hpiece
  · exact ⟨by simp [importAll, word],
      rest_of_importAll (Syntax.not_mem_semicolon_of_pathOf a.sys_eq)⟩
  obtain ⟨m, hm, rfl⟩ := List.mem_map.1 hpiece
  exact ⟨by simp [Method.code, word], fun hrest hitem =>
    (Method.isImplOf_of_readItem (a.headIsWhole_of_mem hm) hrest hitem).1⟩

include a in
/-- A file begins with no attributes of its own: the first is that of the foreign library. -/
theorem reads_innerAttributes (g : Grammar) : Reads g.innerAttributes tokens [] tokens := by
  have hpound : tokens = op "#" ++ (Code.brackets (linkContent config) ++ tokens.drop 2) := by
    rw [a.tokens_eq]
    rfl
  rw [hpound]
  exact Syntax.reads_innerAttributes_nil (.inr rfl)

/-- Where the file is code, each method is read as an item of its own, and three come before. -/
theorem exists_items {file : Syntax.File} (h : Syntax.fileOf tokens = .ok file) :
    ∃ start items, file.items = start ++ items ∧ start.length = 3 ∧ List.Forall₂
      (fun m item => IsImplOf (Grammar.atDepth (Code.sizeOf tokens)) m.body.code item)
      a.all items := by
  obtain ⟨⟨file', written⟩, hrun, h⟩ := bind_eq_ok_iff.1 h
  cases h
  obtain ⟨last, hread, -, -⟩ := Syntax.run_eq_ok hrun
  obtain ⟨start, hstart, -, hread⟩ :=
    (a.reads_innerAttributes (Grammar.for tokens)).of_bind_eq_ok hread
  obtain ⟨items, ended, hitems, hfile⟩ := Syntax.Parser.bind_input_eq_ok_iff.1 hread
  cases hfile
  -- A piece that begins the file is no method, but that need not be shown here.
  have hpieces : ∀ piece ∈ a.pieces, piece ≠ [] ∧ ∀ {input final : Syntax.Input}
      {item : Syntax.Item} {rest : List Token}, input.rest = piece ++ rest →
      (Grammar.for tokens).item input = .ok (item, final) → final.rest = rest ∧ ∀ m ∈ a.all,
        piece = m.code → IsImplOf (Grammar.atDepth (Code.sizeOf tokens)) m.body.code item := by
    intro piece hpiece
    obtain ⟨hne, hends⟩ := a.rest_of_mem_pieces hpiece
    refine ⟨hne, fun hrest hitem => ⟨hends hrest hitem, ?_⟩⟩
    rintro m hm rfl
    exact (Method.isImplOf_of_readItem (a.headIsWhole_of_mem hm) hrest hitem).2
  obtain ⟨hforall, -⟩ := Syntax.forall₂_of_untilEnd hpieces (hstart.trans a.flatten_pieces.symm)
    hitems
  have hpieces : a.pieces = [foreignCode config,
      importAll (a.runtime.tokens ++ op "::" ++ word "prelude"), importAll a.sys.tokens] ++
        a.all.map (·.code) := rfl
  rw [hpieces] at hforall
  obtain ⟨starts, methods, rfl, hstarts, hmethods⟩ := exists_append_of_forall₂ hforall
  refine ⟨starts, methods, rfl, hstarts.length_eq.symm, ?_⟩
  have hall := (List.forall₂_and_left _ _).2 ⟨fun m hm => hm, List.forall₂_map_left_iff.1 hmethods⟩
  exact hall.imp fun m item h => h.2 m h.1 rfl

end Assembled

end ForeignWrap.Generation
