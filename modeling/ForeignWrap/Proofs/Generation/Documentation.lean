import ForeignWrap.Proofs.Generation.Unit
import ForeignWrap.Proofs.Layout.Documentation

/-!
# The documentation of generated methods

A method is documented by the comment lines above its directive and by its place. The code that
documents it is always code as long as it is tokens. Once it has been written it is read again as
the same documentation, unless a comment line has a carriage return inside: what it says is then
written behind `///`, where no carriage return may stand.

## Main definitions

* `ForeignWrap.Doc.texts`: the texts that document a method.
* `ForeignWrap.HoldsReturn`: the comment lines that are no code once they have been written.
* `ForeignWrap.Generation.lex_documentation`: the documentation of a method, written and read again.
-/

namespace ForeignWrap

/-! ## What comment lines say -/

namespace Doc

/-- What a comment line says is the end of the line, but for the white space there. -/
theorem exists_append_textOf (line : String) :
    ∃ front, Text.dropBlanksEnd line.toList = front ++ (textOf line).toList := by
  have htrim : (Text.trimEnd line).toList = Text.dropBlanksEnd line.toList := by
    simp [Text.trimEnd]
  rw [← htrim]
  unfold textOf
  cases h : ["///", "//!", "//"].findSome? (Text.dropStart? · (Text.trimEnd line)) with
  | none => exact ⟨[], by simp [h]⟩
  | some rest =>
    obtain ⟨start, -, hstart⟩ := List.exists_of_findSome?_eq_some h
    have happend := Text.dropStart?_eq_some_iff.1 hstart
    refine ⟨start.toList, ?_⟩
    simp only [h, Option.getD_some]
    rw [← String.toList_append, ← happend]

theorem newline_notMem_textOf {line : String} (hline : '\n' ∉ line.toList) :
    '\n' ∉ (textOf line).toList := by
  obtain ⟨front, hfront⟩ := exists_append_textOf line
  intro hmem
  have hkept : '\n' ∈ Text.dropBlanksEnd line.toList := by
    rw [hfront]
    exact List.mem_append_right _ hmem
  rw [Text.dropBlanksEnd, List.mem_reverse] at hkept
  exact hline (List.mem_reverse.1 ((List.dropWhile_suffix _).subset hkept))

/-- What a comment line says does not end with white space. -/
theorem isBlank_getLast?_textOf {line : String} {c : Char}
    (hc : (textOf line).toList.getLast? = some c) : Text.isBlank c = false := by
  obtain ⟨front, hfront⟩ := exists_append_textOf line
  have hlast : (Text.dropBlanksEnd line.toList).getLast? = some c := by
    rw [hfront, List.getLast?_append, hc]
    rfl
  have hhead := List.head?_dropWhile_not Text.isBlank line.toList.reverse
  rw [Text.dropBlanksEnd, List.getLast?_reverse] at hlast
  rw [hlast] at hhead
  simpa using hhead

/-- The texts that document a method: what the comment lines say, an empty text if there are any,
and its place. -/
def texts (lines : List String) (place : String) : List String :=
  lines.map textOf ++ (if lines = [] then [] else [""]) ++ [place]

theorem ofLines_eq_texts (lines : List String) (label : String) :
    ofLines lines (some label) = (texts lines (provenance label)).map .escaped := by
  cases lines <;> simp [ofLines, texts, Function.comp_def]

end Doc

/-- What a comment line says has a carriage return inside, and is written as a comment. -/
def HoldsReturn (line : String) : Prop :=
  '\r' ∈ (Doc.textOf line).toList ∧ (Doc.textOf line).toList.head? ≠ some '/'

instance (line : String) : Decidable (HoldsReturn line) :=
  inferInstanceAs (Decidable (_ ∧ _))

namespace Code

/-- The tokens of the characters of a text. -/
def tokensOfChars (cs : List Char) : Option (List Token) :=
  (tokens? ((dropOrderMark cs).length + 1) none (dropOrderMark cs)).map Prod.fst

theorem lex_eq_tokensOfChars (s : String) : lex s = tokensOfChars s.toList :=
  rfl

end Code

namespace Layout

/-- The pieces that the text of a draft is put together from. -/
def pieces (draft : Draft) : Except Unwritable (List String) := do
  let (_, marks) ← draft.run []
  return ((measure marks).foldl Page.add {}).written.reverse

theorem write_eq_map_join (draft : Draft) : write draft = (pieces draft).map String.join := by
  unfold write pieces
  rcases draft.run [] with _ | ⟨_, marks⟩ <;> rfl

/-! ## Comment lines -/

theorem trimSpaces_eq_self {cs : List Char} (h : cs.getLast? ≠ some ' ') : trimSpaces cs = cs := by
  rw [← List.head?_reverse] at h
  unfold trimSpaces
  cases hcs : cs.reverse with
  | nil => simpa using hcs.symm
  | cons c rest =>
    have hc : c ≠ ' ' := by
      rw [hcs] at h
      simpa using h
    rw [List.dropWhile_cons_of_neg (by simpa using hc), ← hcs, List.reverse_reverse]

/-- In a line that has no carriage return at its end, each one lacks its line feed. -/
theorem hasLoneReturn_line_iff {cs : List Char} (hline : '\n' ∉ cs)
    (hend : cs.getLast? ≠ some '\r') : HasLoneReturn (cs ++ ['\n']) ↔ '\r' ∈ cs := by
  induction cs with
  | nil => simp [not_hasLoneReturn_nil]
  | cons c cs ih =>
    rw [List.mem_cons, not_or] at hline
    cases cs with
    | nil =>
      have hc : c ≠ '\r' := by simpa using hend
      simp [not_hasLoneReturn_nil, hc, Ne.symm hc]
    | cons d cs =>
      have hd : d ≠ '\n' := Ne.symm (List.ne_of_not_mem_cons hline.2)
      rw [List.getLast?_cons_cons] at hend
      rw [List.cons_append, hasLoneReturn_cons_iff, ih hline.2 hend, List.mem_cons]
      simp [hd, eq_comm]

theorem commentOf_textOf {line : String} (hline : '\n' ∉ line.toList)
    (hhead : (Doc.textOf line).toList.head? ≠ some '/') :
    commentOf false (Doc.textOf line) = some ("///" ++ Doc.textOf line) := by
  have htext := Doc.newline_notMem_textOf hline
  have hspace : (Doc.textOf line).toList.getLast? ≠ some ' ' := fun h =>
    Bool.noConfusion (Doc.isBlank_getLast?_textOf h)
  simp [commentOf, htext, hhead, trimSpaces_eq_self hspace]

/-- What a comment line says can be read again unless a carriage return is inside. -/
theorem isReadable_textOf_iff {line : String} (hline : '\n' ∉ line.toList) :
    IsReadable (Doc.textOf line) ↔ ¬ HoldsReturn line := by
  by_cases hhead : (Doc.textOf line).toList.head? = some '/'
  · have hnone : commentOf false (Doc.textOf line) = none := by
      simp [commentOf, hhead]
    simp [IsReadable, HoldsReturn, hnone, hhead]
  · have hend : (Doc.textOf line).toList.getLast? ≠ some '\r' := fun h =>
      Bool.noConfusion (Doc.isBlank_getLast?_textOf h)
    have hlone := hasLoneReturn_line_iff (Doc.newline_notMem_textOf hline) hend
    simp [IsReadable, HoldsReturn, commentOf_textOf hline hhead, hhead, hlone]

/-- What a comment line says is kept. -/
theorem keptText_textOf {line : String} (hline : '\n' ∉ line.toList) :
    keptText (Doc.textOf line) = Doc.textOf line := by
  have hspace : (Doc.textOf line).toList.getLast? ≠ some ' ' := fun h =>
    Bool.noConfusion (Doc.isBlank_getLast?_textOf h)
  have hend : (Doc.textOf line).toList.getLast? ≠ some '\r' := fun h =>
    Bool.noConfusion (Doc.isBlank_getLast?_textOf h)
  simp [keptText, Doc.newline_notMem_textOf hline, trimSpaces_eq_self hspace, Text.dropReturn, hend]

end Layout

namespace Generation

/-! ## The comment lines above a directive -/

theorem newline_notMem_of_mem_lines {text line : String} (h : line ∈ Text.lines text) :
    '\n' ∉ line.toList := by
  obtain ⟨index, hindex⟩ := List.mem_iff_getElem?.1 h
  exact (Text.getElem?_lines_eq_some_iff.1 hindex).newline_notMem

/-- What documents a method are lines of its source. -/
theorem mem_lines_of_mem_docs {name : String} {lines : List String} {index : Nat}
    {request : Request} (h : Source.RequestAt name lines index request) {line : String}
    (hline : line ∈ request.docs) : line ∈ lines := by
  obtain ⟨rfl, -, -, ⟨-, -⟩, htrimmed⟩ := h
  have hblock : ∀ {block docs : List String}, Trimmed block docs → line ∈ docs → line ∈ block := by
    rintro _ docs (_ | _) hmem
    · exact List.mem_append_left _ hmem
    · exact hmem
  exact List.mem_append_left _ (List.mem_append_right _ (hblock htrimmed hline))

/-- No line feed is in what documents a method. -/
theorem newline_notMem_docs {sources : List Source} {request : Request}
    (hrequest : request ∈ requestsOf sources) {line : String} (hline : line ∈ request.docs) :
    '\n' ∉ line.toList := by
  have hall : ∀ request ∈ requestsOf sources, ∃ name text index,
      Source.RequestAt name (Text.lines text) index request :=
    forall_mem_of_forall₂ (requestAt_requestsOf sources).flip
      fun _ place hplace => ⟨place.1.name, place.1.text, place.2, hplace⟩
  obtain ⟨name, text, index, hat⟩ := hall request hrequest
  exact newline_notMem_of_mem_lines (mem_lines_of_mem_docs hat hline)

theorem docs_of_locatedMethod_eq_ok {config : Config} {request : Request} {m : Method}
    (h : locatedMethod config request = .ok m) :
    m.docs = Doc.ofLines request.docs (some request.label) := by
  rw [locatedMethod, located, mapError_eq_ok_iff, methodOf, Method.ofLine_eq_map,
    map_eq_ok_iff] at h
  obtain ⟨alone, -, rfl⟩ := h
  rfl

/-! ## Written and read again -/

/-- The code that documents a method. -/
theorem flatMap_code_docs {config : Config} {request : Request} {m : Method}
    (h : locatedMethod config request = .ok m) :
    m.docs.flatMap (·.code) =
      Layout.docCode (Doc.texts request.docs (Doc.provenance request.label)) := by
  rw [docs_of_locatedMethod_eq_ok h, Doc.ofLines_eq_texts, Layout.docCode, List.flatMap_map]

/-- All texts that document a method can be read again if no comment line has a carriage return
inside and the place can be read. -/
theorem forall_isReadable_texts_iff {lines : List String} {place : String}
    (hlines : ∀ line ∈ lines, '\n' ∉ line.toList) :
    (∀ doc ∈ Doc.texts lines place, Layout.IsReadable doc) ↔
      (∀ line ∈ lines, ¬ HoldsReturn line) ∧ Layout.IsReadable place := by
  have hempty : ∀ doc ∈ if lines = [] then [] else [""], Layout.IsReadable doc := by
    split
    · simp
    · rw [List.forall_mem_singleton]
      decide
  have hcomments : (∀ doc ∈ lines.map Doc.textOf, Layout.IsReadable doc) ↔
      ∀ line ∈ lines, ¬ HoldsReturn line := by
    rw [List.forall_mem_map]
    exact forall₂_congr fun line hline => Layout.isReadable_textOf_iff (hlines line hline)
  simp only [Doc.texts, List.forall_mem_append, List.forall_mem_singleton, hcomments]
  exact ⟨fun ⟨⟨h, _⟩, hplace⟩ => ⟨h, hplace⟩, fun ⟨h, hplace⟩ => ⟨⟨h, hempty⟩, hplace⟩⟩

/-- What the comment lines say is kept, and of the place what is left of it. -/
theorem map_keptText_texts {lines : List String} {place : String}
    (hlines : ∀ line ∈ lines, '\n' ∉ line.toList) :
    (Doc.texts lines place).map Layout.keptText = Doc.texts lines (Layout.keptText place) := by
  have hempty : (if lines = [] then [] else [""]).map Layout.keptText =
      if lines = [] then [] else [""] := by
    split
    · rfl
    · simp [Layout.keptText, Layout.trimSpaces, Text.dropReturn]
  have hcomments : (lines.map Doc.textOf).map Layout.keptText = lines.map Doc.textOf := by
    rw [List.map_map, List.map_inj_left]
    intro line hline
    rw [Function.comp_apply, Layout.keptText_textOf (hlines line hline)]
  simp only [Doc.texts, List.map_append, hempty, hcomments, List.map_singleton]

/-- **Documentation is read again unless a comment line has a carriage return inside.** The code
that documents a method is the code of attributes, whatever the comment lines say. These attributes
are always written. What has been written is read as the code of the same texts if no comment line
has a carriage return inside and the place can be read, and is no code otherwise. -/
theorem lex_documentation {config : Config} {sources : List Source} {request : Request}
    {m : Method} (hrequest : request ∈ requestsOf sources)
    (hmethod : locatedMethod config request = .ok m) (g : Syntax.Grammar) (depth : Nat) :
    ∃ attrs text,
      Syntax.Parser.run g.outerAttributes (m.docs.flatMap (·.code)) =
        .ok (attrs, m.docs.flatMap (·.code)) ∧
      Layout.write ((Layout.Scribe.atDepth (depth + 1)).outerAttributes attrs) = .ok text ∧
      Code.lex text =
        if (∀ line ∈ request.docs, ¬ HoldsReturn line) ∧
            Layout.IsReadable (Doc.provenance request.label) then
          some (Layout.docCode
            (Doc.texts request.docs (Layout.keptText (Doc.provenance request.label))))
        else none := by
  have hlines : ∀ line ∈ request.docs, '\n' ∉ line.toList :=
    fun _ => newline_notMem_docs hrequest
  obtain ⟨text, hwrite, hlex⟩ := Layout.exists_write_and_lex depth
    (Doc.texts request.docs (Doc.provenance request.label))
  refine ⟨_, text, ?_, hwrite, ?_⟩
  · rw [flatMap_code_docs hmethod]
    exact Layout.run_outerAttributes g _
  · simp only [hlex, forall_isReadable_texts_iff hlines, map_keptText_texts hlines]

/-! ## Texts as pieces -/

/-- The pieces that the text of the file for some sources is put together from. -/
def pieces (config : Config) (sources : List Source) : Except Error (List String) := do
  let tokens ← unit config sources
  let file ← (Syntax.fileOf tokens).mapError fun cause => .format (Code.text tokens) cause
  let written ← (Layout.pieces (Layout.fileDraft file)).mapError .layout
  return generatedHeader :: "\n\n" :: written

theorem generate_eq_map_join (config : Config) (sources : List Source) :
    generate config sources = (pieces config sources).map String.join := by
  unfold generate pieces
  cases unit config sources with
  | error e => rfl
  | ok tokens =>
    simp only [bind, Except.bind, format, Layout.fileText]
    cases Syntax.fileOf tokens with
    | error cause => rfl
    | ok file =>
      simp only [Layout.write_eq_map_join, Except.mapError]
      cases Layout.pieces (Layout.fileDraft file) with
      | error cause => rfl
      | ok written => simp [Except.map, pure, Except.pure, String.append_assoc]

/-- For a comment line with a carriage return inside, what is generated is no code. -/
theorem exists_generate_eq_ok_and_lex_eq_none :
    ∃ code, generate { defaultType := "Int" }
        [⟨"int.rs", "// a\rb\n//wrap:expr neg Z3_mk_unary_minus x"⟩] = .ok code ∧
      Code.lex code = none := by
  have hpieces : ((pieces { defaultType := "Int" }
      [⟨"int.rs", "// a\rb\n//wrap:expr neg Z3_mk_unary_minus x"⟩]).map fun written =>
        (Code.tokensOfChars (written.flatMap String.toList)).isNone) = .ok true := by
    set_option maxRecDepth 100000 in decide +kernel
  obtain ⟨written, hwritten, hlex⟩ := map_eq_ok_iff.1 hpieces
  refine ⟨String.join written, ?_, ?_⟩
  · rw [generate_eq_map_join, hwritten]
    rfl
  · rw [Code.lex_eq_tokensOfChars, String.toList_join]
    exact Option.isNone_iff_eq_none.1 hlex

end Generation

end ForeignWrap
