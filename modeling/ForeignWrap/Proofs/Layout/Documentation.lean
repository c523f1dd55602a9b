import ForeignWrap.Layout.File
import ForeignWrap.Method.Code
import ForeignWrap.Proofs.Layout.Comment
import ForeignWrap.Proofs.Results
import ForeignWrap.Syntax.Reader

/-!
# Documentation as it is laid out

The attributes that document a method are written one below the other, as comments where a comment
can hold them. What has been written is read again as the same documentation, unless a comment holds
a carriage return without its line feed. Then it is no code at all, though the tokens were.

## Main definitions

* `ForeignWrap.Layout.docCode`, `ForeignWrap.Layout.run_outerAttributes`: documentation as code, and
  the attributes that it is read as.
* `ForeignWrap.Layout.Laid`: texts as they stand below each other.
* `ForeignWrap.Layout.exists_write_and_lex`: documentation that is written and read again.
-/

namespace ForeignWrap.Layout

open Code (Token word op)
open Syntax (Attribute Grammar Parser Input)

/-! ## Attributes -/

/-- The attribute that documents something. -/
def docAttribute (doc : String) : Attribute :=
  .valueAttribute false ⟨false, ["doc"]⟩ (.literal (Text.stringLiteral doc))

theorem attributeComment_docAttribute (doc : String) :
    attributeComment (docAttribute doc) = commentOf false doc := by
  simp only [attributeComment, docAttribute, Syntax.textValue?_stringLiteral]
  rfl

/-- The tokens of the attributes that document something. -/
def docCode (docs : List String) : List Token :=
  docs.flatMap fun doc => (Doc.escaped doc).code

theorem docCode_cons (doc : String) (docs : List String) :
    docCode (doc :: docs) = (Doc.escaped doc).code ++ docCode docs :=
  List.flatMap_cons ..

theorem collectUpTo_of_none {α : Type} {step : Parser (Option α)} {bound : Nat}
    {input next : Input} (hstep : step input = .ok (none, next)) :
    Syntax.Parser.collectUpTo step (bound + 1) input = .ok ([], next) := by
  rw [Syntax.Parser.collectUpTo]
  simp only [bind, StateT.bind, hstep, Except.bind]
  rfl

theorem collectUpTo_of_some {α : Type} {step : Parser (Option α)} {bound : Nat}
    {input next last : Input} {a : α} {more : List α} (hstep : step input = .ok (some a, next))
    (hmore : Syntax.Parser.collectUpTo step bound next = .ok (more, last)) :
    Syntax.Parser.collectUpTo step (bound + 1) input = .ok (a :: more, last) := by
  rw [Syntax.Parser.collectUpTo]
  simp only [bind, StateT.bind, hstep, Except.bind, hmore]
  rfl

/-- Reads the next attribute, if there is one. -/
def nextAttribute (g : Grammar) : Parser (Option Attribute) := do
  if !(← Syntax.Parser.op? "#") then return none
  return some (← Syntax.Parser.inside .bracket (g.attributeBody false))

theorem nextAttribute_docCode (g : Grammar) (doc : String) (rest taken : List Token) :
    nextAttribute g { rest := (Doc.escaped doc).code ++ rest, taken } =
      .ok (some (docAttribute doc), { rest, taken := (Doc.escaped doc).code.reverse ++ taken }) :=
  rfl

theorem collectUpTo_nextAttribute {g : Grammar} {bound : Nat} (docs : List String)
    (taken : List Token) (hbound : docs.length < bound) :
    Syntax.Parser.collectUpTo (nextAttribute g) bound { rest := docCode docs, taken } =
      .ok (docs.map docAttribute, { rest := [], taken := (docCode docs).reverse ++ taken }) := by
  induction docs generalizing bound taken with
  | nil =>
    obtain ⟨bound, rfl⟩ := Nat.exists_eq_add_one_of_ne_zero (Nat.ne_zero_of_lt hbound)
    exact collectUpTo_of_none rfl
  | cons doc docs ih =>
    obtain ⟨bound, rfl⟩ := Nat.exists_eq_add_one_of_ne_zero (Nat.ne_zero_of_lt hbound)
    rw [docCode_cons, List.reverse_append, List.append_assoc]
    exact collectUpTo_of_some (nextAttribute_docCode g doc _ taken)
      (ih _ (by simpa using hbound))

theorem length_le_length_docCode (docs : List String) : docs.length ≤ (docCode docs).length := by
  induction docs with
  | nil => simp
  | cons doc docs ih =>
    have hcode : (Doc.escaped doc).code.length = 2 := rfl
    rw [docCode_cons, List.length_append, List.length_cons]
    omega

/-- The attributes that document something are read from their tokens. -/
theorem run_outerAttributes (g : Grammar) (docs : List String) :
    Syntax.Parser.run g.outerAttributes (docCode docs) =
      .ok (docs.map docAttribute, docCode docs) := by
  have hcollect : g.outerAttributes { rest := docCode docs } =
      .ok (docs.map docAttribute, { rest := [], taken := (docCode docs).reverse ++ [] }) :=
    collectUpTo_nextAttribute docs [] (Nat.lt_succ_of_le (length_le_length_docCode docs))
  rw [Syntax.Parser.run]
  simp only [bind, Except.bind, hcollect, List.append_nil, List.reverse_reverse]
  rfl

/-! ## Marks -/

/-- The pieces that a text is written as: a comment, or an attribute where no comment can hold
it. -/
def docPieces (doc : String) : List String :=
  match commentOf false doc with
  | some comment => [comment]
  | none => ["#[", "doc", " = ", Text.stringLiteral doc, "]"]

/-- What comes after a text: a comment ends its line, and an attribute need not. -/
def docGap (doc : String) : Gap :=
  { blanks := if (commentOf false doc).isSome then farTooWide else 1 }

/-- The marks that a text is drafted with, in order. -/
def docMarks (doc : String) : List Mark :=
  (docPieces doc).map .text ++ [.gap (docGap doc)]

theorem run_attr (depth : Nat) (doc : String) (marks : List Mark) :
    ((Scribe.atDepth (depth + 1)).attr (docAttribute doc)).run marks =
      .ok ((), (docMarks doc).reverse ++ marks) := by
  have hcomment := attributeComment_docAttribute doc
  unfold Scribe.attr docMarks docPieces docGap
  rw [hcomment]
  cases commentOf false doc <;> rfl

/-- What is written for each of some elements is written for all of them. -/
theorem run_eachFrom {α β : Type} {write : α → Draft} {f : β → α} {marksOf : β → List Mark}
    (hwrite : ∀ b marks, (write (f b)).run marks = .ok ((), (marksOf b).reverse ++ marks))
    (elements : List β) (isFirst : Bool) (marks : List Mark) :
    (eachFrom (fun _ _ a => write a) isFirst (elements.map f)).run marks =
      .ok ((), (elements.flatMap marksOf).reverse ++ marks) := by
  induction elements generalizing isFirst marks with
  | nil => rfl
  | cons b rest ih =>
    cases rest with
    | nil => simpa [eachFrom] using hwrite b marks
    | cons b' rest =>
      rw [List.map_cons, List.map_cons, eachFrom, StateT.run_bind, hwrite, List.flatMap_cons,
        List.reverse_append, List.append_assoc]
      exact ih false _

theorem run_outerAttributes_docAttribute (depth : Nat) (docs : List String) :
    ((Scribe.atDepth (depth + 1)).outerAttributes (docs.map docAttribute)).run [] =
      .ok ((), (docs.flatMap docMarks).reverse) := by
  have houter : (docs.map docAttribute).filter (!·.isInner) = docs.map docAttribute := by
    rw [List.filter_eq_self]
    simp [docAttribute, Syntax.Tree.isInner]
  rw [Scribe.outerAttributes, houter, all, each, run_eachFrom (run_attr depth),
    List.append_nil]

/-! ## Measuring -/

/-- A mark with its size: a gap is at least as wide as its blanks. -/
def SizedAs (mark : Mark) (sized : Mark × Nat) : Prop :=
  sized.1 = mark ∧ ∀ g, mark = .gap g → g.blanks ≤ sized.2

/-- Marks that no boxes are among keep their order, and gaps their width. -/
theorem exists_measureFrom {left next : Nat} {around : List Nat} {measured : List (Mark × Nat)}
    {marks : List Mark} (hnext : next ≤ left)
    (hmarks : ∀ mark ∈ marks, (∃ s, mark = .text s) ∨ ∃ g, mark = .gap g) :
    ∃ sized, measureFrom left next around measured marks = sized ++ measured ∧
      List.Forall₂ SizedAs marks.reverse sized := by
  induction marks generalizing left next measured with
  | nil => exact ⟨[], rfl, .nil⟩
  | cons mark marks ih =>
    obtain ⟨hmark, hrest⟩ := List.forall_mem_cons.1 hmarks
    obtain ⟨s, rfl⟩ | ⟨g, rfl⟩ := hmark
    · obtain ⟨sized, hsized, hrel⟩ := ih (Nat.le_add_right_of_le hnext) hrest
      refine ⟨sized ++ [(.text s, width s)], ?_, ?_⟩
      · rw [measureFrom, hsized, List.append_assoc, List.singleton_append]
      · rw [List.reverse_cons]
        exact List.rel_append hrel (.cons ⟨rfl, by simp⟩ .nil)
    · obtain ⟨sized, hsized, hrel⟩ := ih le_rfl hrest
      refine ⟨sized ++ [(.gap g, left + g.blanks - next)], ?_, ?_⟩
      · rw [measureFrom, hsized, List.append_assoc, List.singleton_append]
      · rw [List.reverse_cons]
        refine List.rel_append hrel (.cons ⟨rfl, ?_⟩ .nil)
        rintro _ ⟨rfl⟩
        omega

theorem forall₂_sizedAs_measure {marks : List Mark}
    (hmarks : ∀ mark ∈ marks, (∃ s, mark = .text s) ∨ ∃ g, mark = .gap g) :
    List.Forall₂ SizedAs marks.reverse (measure marks) := by
  obtain ⟨sized, hsized, hrel⟩ : ∃ sized, measure marks = sized ++ [] ∧ _ :=
    exists_measureFrom le_rfl hmarks
  rwa [hsized, List.append_nil]

/-! ## Pages -/

/-- A page on which lines begin at the margin and may end at every gap. -/
structure AtMargin (page : Page) : Prop where
  boxes : page.boxes = []
  indent : page.indent = 0
  room : page.room ≤ lineWidth

theorem AtMargin.addText {page : Page} (h : AtMargin page) (s : String) :
    AtMargin (page.addText s) where
  boxes := h.boxes
  indent := h.indent
  room := (Int.sub_le_self _ (Int.natCast_nonneg _)).trans h.room

theorem text_addText (page : Page) (s : String) :
    (page.addText s).text.toList =
      page.text.toList ++ (List.replicate page.blanks ' ' ++ s.toList) := by
  simp [Page.text, Page.addText]

/-- Pieces follow each other without spaces, after those that wait for the first one. -/
theorem AtMargin.foldl_addText {page : Page} (h : AtMargin page) {pieces : List String}
    (hpieces : pieces ≠ []) :
    AtMargin (pieces.foldl Page.addText page) ∧ (pieces.foldl Page.addText page).blanks = 0 ∧
      (pieces.foldl Page.addText page).text.toList = page.text.toList ++
        (List.replicate page.blanks ' ' ++ (String.join pieces).toList) := by
  induction pieces generalizing page with
  | nil => exact absurd rfl hpieces
  | cons s rest ih =>
    cases rest with
    | nil => exact ⟨h.addText s, rfl, by simp [text_addText]⟩
    | cons t rest =>
      obtain ⟨hmargin, hblanks, htext⟩ := ih (h.addText s) (by simp)
      refine ⟨hmargin, hblanks, ?_⟩
      rw [List.foldl_cons, htext, text_addText]
      simp [Page.addText]

/-- Marks of text are added as their texts. -/
theorem foldl_add_texts {pieces : List String} {sized : List (Mark × Nat)}
    (hsized : List.Forall₂ SizedAs (pieces.map .text) sized) (page : Page) :
    sized.foldl Page.add page = pieces.foldl Page.addText page := by
  induction pieces generalizing sized page with
  | nil =>
    obtain rfl := List.forall₂_nil_left_iff.1 hsized
    rfl
  | cons s pieces ih =>
    obtain ⟨⟨mark, size⟩, rest, ⟨rfl, -⟩, hrest, rfl⟩ := List.forall₂_cons_left_iff.1 hsized
    rw [List.foldl_cons, ih hrest, List.foldl_cons]
    rfl

/-- Where a gap ends the line, the next one begins at the margin. -/
theorem AtMargin.addGap_of_not_goesOn {page : Page} (h : AtMargin page) {blanks size : Nat}
    (hends : page.goesOn { blanks } size = false) :
    AtMargin (page.addGap { blanks } size) ∧ (page.addGap { blanks } size).blanks = 0 ∧
      (page.addGap { blanks } size).text.toList = page.text.toList ++ ['\n'] := by
  have hpage : page.addGap { blanks } size =
      { page with written := "\n" :: page.written, blanks := 0, room := lineWidth } := by
    rw [Page.addGap, if_neg (by simp [hends])]
    simp only [if_pos, h.indent]
    rfl
  rw [hpage]
  exact ⟨⟨h.boxes, h.indent, le_rfl⟩, rfl, by simp [Page.text]⟩

/-- A gap that does not end the line leaves its blanks to what comes next. -/
theorem AtMargin.addGap_of_goesOn {page : Page} (h : AtMargin page) {blanks size : Nat}
    (hgoes : page.goesOn { blanks } size = true) :
    AtMargin (page.addGap { blanks } size) ∧
      (page.addGap { blanks } size).blanks = page.blanks + blanks ∧
      (page.addGap { blanks } size).text = page.text := by
  have hpage : page.addGap { blanks } size =
      { page with blanks := page.blanks + blanks, room := page.room - blanks } := by
    rw [Page.addGap, if_pos hgoes]
    rfl
  rw [hpage]
  exact ⟨⟨h.boxes, h.indent, (Int.sub_le_self _ (Int.natCast_nonneg _)).trans h.room⟩, rfl, rfl⟩

/-- No line has room for a gap that is wider than a line. -/
theorem AtMargin.goesOn_eq_false {page : Page} (h : AtMargin page) {blanks size : Nat}
    (hsize : lineWidth < size) : page.goesOn { blanks } size = false := by
  have hroom := h.room
  simp only [Page.goesOn, h.boxes, Bool.false_or, decide_eq_false_iff_not]
  omega

/-! ## Texts below each other -/

/-- What may stand after a text, and the blanks that then wait for the next one. -/
inductive Ending (doc : String) : (ending : List Char) → (blanks : Nat) → Prop where
  | line : Ending doc ['\n'] 0
  | space : commentOf false doc = none → Ending doc [] 1

/-- Texts that stand below each other, the first one after some blanks. -/
inductive Laid : (blanks : Nat) → (docs : List String) → (text : List Char) → Prop where
  | nil {blanks : Nat} : Laid blanks [] []
  | cons {blanks next : Nat} {doc : String} {docs : List String} {ending text : List Char} :
      Ending doc ending next → Laid next docs text →
      Laid blanks (doc :: docs)
        (List.replicate blanks ' ' ++ ((String.join (docPieces doc)).toList ++ (ending ++ text)))

/-- The marks of one text add the text and what may stand after it. -/
theorem exists_ending {doc : String} {sized : List (Mark × Nat)}
    (hsized : List.Forall₂ SizedAs (docMarks doc) sized) {page : Page} (h : AtMargin page) :
    ∃ ending, Ending doc ending (sized.foldl Page.add page).blanks ∧
      AtMargin (sized.foldl Page.add page) ∧
      (sized.foldl Page.add page).text.toList = page.text.toList ++
        (List.replicate page.blanks ' ' ++ ((String.join (docPieces doc)).toList ++ ending)) := by
  obtain ⟨front, ⟨mark, size⟩, rfl, hfront, rfl, hsize⟩ := forall₂_concat_left_iff.1 hsized
  have hpieces : docPieces doc ≠ [] := by
    unfold docPieces
    split <;> simp
  obtain ⟨hmargin, hblanks, htext⟩ := h.foldl_addText hpieces
  have hfold : (front ++ [(Mark.gap (docGap doc), size)]).foldl Page.add page =
      ((docPieces doc).foldl Page.addText page).addGap (docGap doc) size := by
    rw [List.foldl_append, foldl_add_texts hfront]
    rfl
  rw [hfold]
  cases hgoes : ((docPieces doc).foldl Page.addText page).goesOn (docGap doc) size with
  | false =>
    obtain ⟨hmargin', hblanks', htext'⟩ := hmargin.addGap_of_not_goesOn hgoes
    refine ⟨['\n'], ?_, hmargin', ?_⟩
    · rw [docGap, hblanks']
      exact .line
    · rw [docGap, htext', htext]
      simp only [List.append_assoc]
  | true =>
    obtain ⟨hmargin', hblanks', htext'⟩ := hmargin.addGap_of_goesOn hgoes
    have hnone : commentOf false doc = none := by
      by_contra hcomment
      have hblanks : (docGap doc).blanks = farTooWide := by
        simp [docGap, Option.isSome_iff_ne_none.2 hcomment]
      have hwide : lineWidth < size := by
        have hgap : (docGap doc).blanks ≤ size := hsize _ rfl
        have hline : lineWidth < farTooWide := by decide
        omega
      exact Bool.noConfusion ((hmargin.goesOn_eq_false hwide).symm.trans hgoes)
    refine ⟨[], ?_, hmargin', ?_⟩
    · rw [docGap, hblanks', hblanks, hnone]
      exact .space hnone
    · rw [docGap, htext', htext, List.append_nil]

/-- The marks of some texts are written as these texts below each other. -/
theorem exists_laid {docs : List String} {sized : List (Mark × Nat)}
    (hsized : List.Forall₂ SizedAs (docs.flatMap docMarks) sized) {page : Page}
    (h : AtMargin page) :
    ∃ text, Laid page.blanks docs text ∧
      (sized.foldl Page.add page).text.toList = page.text.toList ++ text := by
  induction docs generalizing sized page with
  | nil =>
    obtain rfl := List.forall₂_nil_left_iff.1 hsized
    exact ⟨[], .nil, by simp⟩
  | cons doc docs ih =>
    rw [List.flatMap_cons] at hsized
    obtain ⟨front, back, rfl, hfront, hback⟩ := exists_append_of_forall₂ hsized
    obtain ⟨ending, hending, hmargin, hwritten⟩ := exists_ending hfront h
    obtain ⟨text, hlaid, htext⟩ := ih hback hmargin
    refine ⟨_, .cons hending hlaid, ?_⟩
    rw [List.foldl_append, htext, hwritten]
    simp only [List.append_assoc]

/-- Documentation is written as its texts below each other. -/
theorem exists_write_eq_ok (depth : Nat) (docs : List String) :
    ∃ text, write ((Scribe.atDepth (depth + 1)).outerAttributes (docs.map docAttribute)) =
        .ok text ∧ Laid 0 docs text.toList := by
  have hmarks : ∀ mark ∈ (docs.flatMap docMarks).reverse,
      (∃ s, mark = .text s) ∨ ∃ g, mark = .gap g := by
    intro mark hmark
    obtain ⟨doc, -, hmark⟩ := List.mem_flatMap.1 (List.mem_reverse.1 hmark)
    obtain hmark | hmark := List.mem_append.1 hmark
    · obtain ⟨s, -, rfl⟩ := List.mem_map.1 hmark
      exact .inl ⟨s, rfl⟩
    · exact .inr ⟨_, List.mem_singleton.1 hmark⟩
  have hsized := forall₂_sizedAs_measure hmarks
  rw [List.reverse_reverse] at hsized
  have hmargin : AtMargin {} := ⟨rfl, rfl, le_rfl⟩
  obtain ⟨text, hlaid, htext⟩ := exists_laid hsized hmargin
  refine ⟨((measure (docs.flatMap docMarks).reverse).foldl Page.add {}).text, ?_, ?_⟩
  · rw [write, run_outerAttributes_docAttribute]
    rfl
  · rw [htext]
    exact hlaid

/-! ## Reading -/

theorem join_docPieces {doc comment : String} (h : commentOf false doc = some comment) :
    String.join (docPieces doc) = comment := by
  simp [docPieces, h]

theorem toList_join_docPieces {doc : String} (h : commentOf false doc = none) :
    (String.join (docPieces doc)).toList =
      "#[doc = ".toList ++ ((Text.stringLiteral doc).toList ++ [']']) := by
  simp [docPieces, h]

/-- One text and the tokens after it: a comment that cannot be read ends the reading. -/
theorem tokens?_docPieces {doc : String} {ending text : List Char} {next fuel : Nat}
    (hending : Ending doc ending next)
    (hfuel : ((String.join (docPieces doc)).toList ++ (ending ++ text)).length < fuel) :
    ∃ less, text.length < less ∧
      Code.tokens? fuel none ((String.join (docPieces doc)).toList ++ (ending ++ text)) =
        if IsReadable doc then
          (Code.tokens? less none text).map fun (more, after) =>
            ((Doc.escaped (keptText doc)).code ++ more, after)
        else none := by
  cases hcomment : commentOf false doc with
  | some comment =>
    obtain rfl : ending = ['\n'] := by
      cases hending with
      | line => rfl
      | space hnone =>
        rw [hcomment] at hnone
        cases hnone
    rw [join_docPieces hcomment] at hfuel ⊢
    obtain ⟨fuel, rfl⟩ := Nat.exists_eq_add_one_of_ne_zero (Nat.ne_zero_of_lt hfuel)
    refine ⟨fuel, ?_, tokens?_comment hcomment text⟩
    simp only [List.length_append, List.length_singleton] at hfuel
    omega
  | none =>
    have hreadable : IsReadable doc := by simp [IsReadable, hcomment]
    have hkept : keptText doc = doc := by simp [keptText, hcomment]
    have hlength : "#[doc = ".toList.length = 8 := rfl
    rw [toList_join_docPieces hcomment] at hfuel ⊢
    simp only [List.length_append, List.length_singleton, hlength] at hfuel
    obtain ⟨fuel, rfl⟩ : ∃ n, fuel = n + 6 := ⟨fuel - 6, by omega⟩
    refine ⟨fuel + 4, by omega, ?_⟩
    have hafter : Code.tokens? (fuel + 4) none (ending ++ text) =
        Code.tokens? (fuel + 4) none text := by
      cases hending with
      | line => exact Code.tokens?_spacing rfl text
      | space _ => rfl
    rw [if_pos hreadable, hkept, ← hafter, List.append_assoc, List.append_assoc,
      List.singleton_append]
    exact Code.tokens?_docAttribute doc (ending ++ text)

/-- Texts below each other are read as what is left of them, if all can be read. -/
theorem tokens?_laid {blanks fuel : Nat} {docs : List String} {text : List Char}
    (h : Laid blanks docs text) (hfuel : text.length < fuel) :
    Code.tokens? fuel none text =
      if ∀ doc ∈ docs, IsReadable doc then some (docCode (docs.map keptText), []) else none := by
  induction h generalizing fuel with
  | nil =>
    obtain ⟨fuel, rfl⟩ := Nat.exists_eq_add_one_of_ne_zero (Nat.ne_zero_of_lt hfuel)
    rfl
  | @cons blanks next doc docs ending text hending _ ih =>
    rw [List.length_append] at hfuel
    obtain ⟨less, hless, hdoc⟩ := tokens?_docPieces hending (Nat.lt_of_add_left_lt hfuel)
    rw [Code.tokens?_spaces, hdoc, ih hless]
    simp only [List.forall_mem_cons]
    by_cases hreadable : IsReadable doc
    · by_cases hrest : ∀ doc ∈ docs, IsReadable doc
      · simp [hreadable, if_pos hrest, docCode_cons]
      · simp [hreadable, if_neg hrest]
    · simp [hreadable]

/-- What has been written begins with the first sign of a comment or of an attribute. -/
theorem head?_join_docPieces (doc : String) :
    ∃ c rest, (String.join (docPieces doc)).toList = c :: rest ∧ (c = '/' ∨ c = '#') := by
  cases hcomment : commentOf false doc with
  | none => exact ⟨'#', _, toList_join_docPieces hcomment, .inr rfl⟩
  | some comment =>
    rw [join_docPieces hcomment]
    obtain ⟨-, -, h⟩ | ⟨-, -, -, -, -, h⟩ := commentOf_false_cases hcomment
    · exact ⟨'/', _, h, .inl rfl⟩
    · exact ⟨'/', _, h, .inl rfl⟩

theorem dropOrderMark_laid {docs : List String} {text : List Char} (h : Laid 0 docs text) :
    Code.dropOrderMark text = text := by
  cases h with
  | nil => rfl
  | @cons _ _ doc _ ending text _ _ =>
    obtain ⟨c, rest, hjoin, hc⟩ := head?_join_docPieces doc
    rw [List.replicate_zero, List.nil_append, hjoin, List.cons_append]
    obtain rfl | rfl := hc <;> rfl

/-- Documentation that has been written is read as what is left of it, if all can be read. -/
theorem exists_write_and_lex (depth : Nat) (docs : List String) :
    ∃ text, write ((Scribe.atDepth (depth + 1)).outerAttributes (docs.map docAttribute)) =
        .ok text ∧
      Code.lex text =
        if ∀ doc ∈ docs, IsReadable doc then some (docCode (docs.map keptText)) else none := by
  obtain ⟨text, hwrite, hlaid⟩ := exists_write_eq_ok depth docs
  refine ⟨text, hwrite, ?_⟩
  simp only [Code.lex, dropOrderMark_laid hlaid, tokens?_laid hlaid (Nat.lt_succ_self _)]
  split <;> rfl

end ForeignWrap.Layout
