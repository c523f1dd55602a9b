import ForeignWrap.Code.Lexer
import ForeignWrap.Layout.Attribute
import ForeignWrap.Proofs.Text.Quoted

/-!
# Reading documentation

A comment that documents something is code exactly if each of its carriage returns has a line feed.
An attribute that documents something is code whatever it says.

## Main definitions

* `ForeignWrap.Code.tokens?_lineComment`, `ForeignWrap.Code.tokens?_blockComment`: what a comment is
  read as.
* `ForeignWrap.Code.tokens?_docAttribute`: what an attribute is read as.
-/

namespace ForeignWrap.Code

open Text

/-! ## The content of comments -/

theorem dropReturn_cons_cons (c d : Char) (cs : List Char) :
    dropReturn (c :: d :: cs) = c :: dropReturn (d :: cs) := by
  simp only [dropReturn, List.getLast?_cons_cons]
  split <;> simp

/-- A comment line ends at the line feed, and leaves out the return before it. -/
theorem restOfLine_append {content : List Char} (rest : List Char) (hline : '\n' ∉ content) :
    restOfLine (content ++ '\n' :: rest) = (dropReturn content, '\n' :: rest) := by
  induction content with
  | nil => rfl
  | cons c cs ih =>
    rw [List.mem_cons, not_or] at hline
    obtain ⟨hc, hcs⟩ := hline
    cases cs with
    | nil =>
      by_cases hreturn : c = '\r'
      · rw [hreturn]
        rfl
      · rw [List.singleton_append, restOfLine]
        · simp [restOfLine, dropReturn, hreturn]
        all_goals simp [hreturn, Ne.symm hc]
    | cons d cs =>
      rw [List.cons_append, restOfLine, ih hcs, dropReturn_cons_cons]
      · exact Ne.symm hc
      · simp [Ne.symm (List.ne_of_not_mem_cons hcs)]

theorem returnsPaired_cons {c : Char} (hc : c ≠ '\r') (cs : List Char) :
    returnsPaired (c :: cs) = returnsPaired cs := by
  rw [returnsPaired] <;> simp [hc]

theorem returnsPaired_return_cons {cs : List Char} (hcs : cs.head? ≠ some '\n') :
    returnsPaired ('\r' :: cs) = false := by
  cases cs with
  | nil => rfl
  | cons c cs =>
    have hc : c ≠ '\n' := by simpa using hcs
    simp [returnsPaired, hc]

/-- What follows on a character that is no line feed pairs no return before that character. -/
theorem returnsPaired_append_cons {c : Char} (hc : c ≠ '\n') (hreturn : c ≠ '\r')
    (content rest : List Char) :
    returnsPaired (content ++ c :: rest) = (returnsPaired content && returnsPaired rest) := by
  induction content using returnsPaired.induct with
  | case1 => rw [List.nil_append, returnsPaired_cons hreturn]; rfl
  | case2 cs ih => simpa [returnsPaired] using ih
  | case3 cs hcs =>
    cases cs with
    | nil => simp [returnsPaired, hc]
    | cons d cs =>
      have hd : d ≠ '\n' := fun h => hcs cs (by rw [h])
      simp [returnsPaired, hd]
  | case4 d cs _ hd ih => rw [List.cons_append, returnsPaired_cons hd, returnsPaired_cons hd, ih]

/-- A line feed after the content of a comment line pairs the return that the comment leaves out. -/
theorem returnsPaired_line {content : List Char} (hline : '\n' ∉ content) :
    returnsPaired (content ++ ['\n']) = returnsPaired (dropReturn content) := by
  induction content with
  | nil => rfl
  | cons c cs ih =>
    rw [List.mem_cons, not_or] at hline
    obtain ⟨hc, hcs⟩ := hline
    cases cs with
    | nil =>
      by_cases hreturn : c = '\r'
      · rw [hreturn]
        rfl
      · simp [returnsPaired, dropReturn, hreturn]
    | cons d cs =>
      rw [dropReturn_cons_cons, List.cons_append]
      by_cases hreturn : c = '\r'
      · have hd : d ≠ '\n' := Ne.symm (List.ne_of_not_mem_cons hcs)
        have hdrop : (dropReturn (d :: cs)).head? ≠ some '\n' := by
          unfold dropReturn
          split
          · cases cs <;> simp [hd]
          · simpa using hd
        rw [hreturn, returnsPaired_return_cons (by simpa using hd), returnsPaired_return_cons hdrop]
      · rw [returnsPaired_cons hreturn, returnsPaired_cons hreturn, ih hcs]

theorem getLast?_ne_of_cons {c d : Char} {cs : List Char} (h : (c :: cs).getLast? ≠ some d) :
    cs.getLast? ≠ some d := by
  cases cs with
  | nil => simp
  | cons e cs => rwa [List.getLast?_cons_cons] at h

/-- A block comment ends with its own end, if the comments inside are balanced. -/
theorem afterBlock?_append {depth : Nat} {content : List Char} (rest : List Char)
    (hbalanced : Layout.commentsBalanced depth content = true)
    (hend : content.getLast? ≠ some '/') :
    afterBlock? (depth + 1) (content ++ '*' :: '/' :: rest) = some rest := by
  induction depth, content using Layout.commentsBalanced.induct with
  | case1 depth cs ih =>
    rw [Layout.commentsBalanced] at hbalanced
    exact ih hbalanced (getLast?_ne_of_cons (getLast?_ne_of_cons hend))
  | case2 depth cs ih =>
    rw [Layout.commentsBalanced, Bool.and_eq_true, decide_eq_true_eq] at hbalanced
    obtain ⟨depth, rfl⟩ := Nat.exists_eq_add_one_of_ne_zero hbalanced.1
    rw [List.cons_append, List.cons_append, afterBlock?, if_neg (by omega)]
    exact ih hbalanced.2 (getLast?_ne_of_cons (getLast?_ne_of_cons hend))
  | case3 depth c cs hopen hclose ih =>
    rw [Layout.commentsBalanced] at hbalanced
    · rw [List.cons_append, afterBlock?, ih hbalanced (getLast?_ne_of_cons hend)]
      -- What follows opens or closes nothing together with the last character.
      · rintro more rfl heq
        cases cs with
        | nil => simp at hend
        | cons d cs =>
          rw [List.cons_append, List.cons.injEq] at heq
          exact hopen cs rfl (by rw [heq.1])
      · rintro more rfl heq
        cases cs with
        | nil => simp at heq
        | cons d cs =>
          rw [List.cons_append, List.cons.injEq] at heq
          exact hclose cs rfl (by rw [heq.1])
    · exact hopen
    · exact hclose
  | case4 depth =>
    obtain rfl : depth = 0 := by simpa [Layout.commentsBalanced] using hbalanced
    rfl

/-! ## Comments -/

/-- A comment line that documents what follows it is the attribute that it stands for, if its
returns are paired. -/
theorem docComment?_line {content : List Char} (rest : List Char) (hline : '\n' ∉ content)
    (hstart : content.head? ≠ some '/') :
    docComment? ('/' :: '/' :: '/' :: (content ++ '\n' :: rest)) =
      if returnsPaired (dropReturn content) then
        some (docAttribute false (String.ofList (dropReturn content)), '\n' :: rest)
      else none := by
  have hhead : (content ++ '\n' :: rest).head? ≠ some '/' := by
    cases content with
    | nil => simp
    | cons c cs => simpa using hstart
  have hcontent : docContent? ('/' :: '/' :: '/' :: (content ++ '\n' :: rest)) =
      some (dropReturn content, false, '\n' :: rest) := by
    simp only [docContent?, if_neg hhead, restOfLine_append rest hline]
  simp only [docComment?, hcontent]
  rfl

/-- The same for a block of lines. -/
theorem docComment?_block {content : List Char} (rest : List Char) (hne : content ≠ [])
    (hbalanced : Layout.commentsBalanced 0 content = true)
    (hend : content.getLast? ≠ some '/') (hstart : content.head? ≠ some '*') :
    docComment? ('/' :: '*' :: '*' :: (content ++ '*' :: '/' :: rest)) =
      if returnsPaired content then
        some (docAttribute false (String.ofList content), rest)
      else none := by
  have hhead : (content ++ '*' :: '/' :: rest).head? ≠ some '*' := by
    cases content with
    | nil => exact absurd rfl hne
    | cons c cs => simpa using hstart
  have hlength : (content ++ '*' :: '/' :: rest).length - rest.length - 2 = content.length := by
    rw [List.length_append, List.length_cons, List.length_cons]
    omega
  have hcontent : docContent? ('/' :: '*' :: '*' :: (content ++ '*' :: '/' :: rest)) =
      some (content, false, rest) := by
    simp only [docContent?, if_neg hhead, docContent?.block, afterBlock?_append rest hbalanced hend,
      Option.bind_eq_bind, Option.bind_some, hlength, List.take_left, Option.pure_def]
  simp only [docComment?, hcontent]
  rfl

/-! ## Tokens -/

variable {fuel : Nat} {inside : Option Delimiter}

/-- Spacing before code is not part of it. -/
theorem tokens?_spacing {c : Char} (hc : isSpacing c = true) (cs : List Char) :
    tokens? fuel inside (c :: cs) = tokens? fuel inside cs := by
  cases fuel with
  | zero => rfl
  | succ fuel =>
    have hskip : skipSpace (c :: cs).length (c :: cs) = skipSpace cs.length cs := by
      rw [List.length_cons, skipSpace, if_pos hc]
    rw [tokens?, tokens?, hskip]

theorem tokens?_spaces (blanks : Nat) (cs : List Char) :
    tokens? fuel inside (List.replicate blanks ' ' ++ cs) = tokens? fuel inside cs := by
  induction blanks with
  | zero => rfl
  | succ n ih => rw [List.replicate_succ, List.cons_append, tokens?_spacing rfl, ih]

theorem skipSpace_eq_self {c : Char} {cs : List Char} (hc : isSpacing c = false)
    (hcomment : afterComment? (c :: cs) = none) :
    skipSpace (c :: cs).length (c :: cs) = c :: cs := by
  rw [List.length_cons, skipSpace, if_neg (by simp [hc]), hcomment]

/-- The tokens of a comment come before those of what follows it. -/
theorem tokens?_of_docComment?_eq_some {cs rest : List Char} {doc : List Token}
    (hskip : skipSpace cs.length cs = cs) (hdoc : docComment? cs = some (doc, rest)) :
    tokens? (fuel + 1) inside cs =
      (tokens? fuel inside rest).map fun (more, after) => (doc ++ more, after) := by
  rw [tokens?, hskip]
  simp only [hdoc]
  cases tokens? fuel inside rest <;> rfl

/-- What begins like a comment, but is none, is no code. -/
theorem tokens?_of_docComment?_eq_none {c : Char} {cs : List Char} (hc : c = '/' ∨ c = '*')
    (hskip : skipSpace ('/' :: c :: cs).length ('/' :: c :: cs) = '/' :: c :: cs)
    (hdoc : docComment? ('/' :: c :: cs) = none) : tokens? fuel inside ('/' :: c :: cs) = none := by
  cases fuel with
  | zero => rfl
  | succ fuel =>
    rw [tokens?, hskip]
    simp only [hdoc]
    obtain rfl | rfl := hc <;> rfl

/-- A comment line is code exactly if its returns are paired. -/
theorem tokens?_lineComment {content : List Char} (rest : List Char) (hline : '\n' ∉ content)
    (hstart : content.head? ≠ some '/') :
    tokens? (fuel + 1) inside ('/' :: '/' :: '/' :: (content ++ '\n' :: rest)) =
      if returnsPaired (dropReturn content) then
        (tokens? fuel inside rest).map fun (more, after) =>
          (docAttribute false (String.ofList (dropReturn content)) ++ more, after)
      else none := by
  have hcomment : afterComment? ('/' :: '/' :: '/' :: (content ++ '\n' :: rest)) = none := by
    cases content with
    | nil => rfl
    | cons c cs =>
      have hc : c ≠ '/' := by simpa using hstart
      simp [afterComment?, hc]
  have hskip := skipSpace_eq_self rfl hcomment
  have hdoc := docComment?_line rest hline hstart
  split
  case isTrue hpaired =>
    rw [if_pos hpaired] at hdoc
    rw [tokens?_of_docComment?_eq_some hskip hdoc, tokens?_spacing rfl]
  case isFalse hlone =>
    rw [if_neg hlone] at hdoc
    exact tokens?_of_docComment?_eq_none (.inl rfl) hskip hdoc

/-- A block of lines is code exactly if its returns are paired. -/
theorem tokens?_blockComment {content : List Char} (rest : List Char) (hne : content ≠ [])
    (hbalanced : Layout.commentsBalanced 0 content = true)
    (hend : content.getLast? ≠ some '/') (hslash : content.head? ≠ some '/')
    (hstar : content.head? ≠ some '*') :
    tokens? (fuel + 1) inside ('/' :: '*' :: '*' :: (content ++ '*' :: '/' :: rest)) =
      if returnsPaired content then
        (tokens? fuel inside rest).map fun (more, after) =>
          (docAttribute false (String.ofList content) ++ more, after)
      else none := by
  have hcomment : afterComment? ('/' :: '*' :: '*' :: (content ++ '*' :: '/' :: rest)) = none := by
    cases content with
    | nil => exact absurd rfl hne
    | cons c cs =>
      have hc : c ≠ '/' := by simpa using hslash
      have hc' : c ≠ '*' := by simpa using hstar
      simp [afterComment?, hc, hc']
  have hskip := skipSpace_eq_self rfl hcomment
  have hdoc := docComment?_block rest hne hbalanced hend hstar
  split
  case isTrue hpaired =>
    rw [if_pos hpaired] at hdoc
    exact tokens?_of_docComment?_eq_some hskip hdoc
  case isFalse hlone =>
    rw [if_neg hlone] at hdoc
    exact tokens?_of_docComment?_eq_none (.inr rfl) hskip hdoc

/-! ## Attributes -/

theorem taken_append (front rest : List Char) :
    taken (front ++ rest) rest = String.ofList front := by
  simp [taken]

/-- The literal of a text is one token, where no word touches it. -/
theorem leaf?_stringLiteral (text : String) {rest : List Char} (hrest : afterWord? rest = none) :
    leaf? ((Text.stringLiteral text).toList ++ rest) =
      some (.literal (Text.stringLiteral text), rest) := by
  have hafter : afterLiteral? ((Text.stringLiteral text).toList ++ rest) = some rest := by
    rw [afterLiteral?, afterTextString?_stringLiteral, afterSuffix, hrest]
    rfl
  simp only [leaf?, hafter, taken_append, String.ofList_toList]

/-- A leaf comes before the tokens of what follows it. -/
theorem tokens?_of_leaf? {c : Char} {cs rest : List Char} {token : Token}
    (hskip : skipSpace (c :: cs).length (c :: cs) = c :: cs) (hdoc : docComment? (c :: cs) = none)
    (hopens : opens? (c :: cs) = none) (hcloses : closes? c = none)
    (hleaf : leaf? (c :: cs) = some (token, rest)) :
    tokens? (fuel + 1) inside (c :: cs) =
      (tokens? fuel inside rest).map fun (more, after) => (token :: more, after) := by
  rw [tokens?, hskip]
  simp only [hdoc, hopens, hcloses, hleaf, Option.map_eq_bind]
  rfl

theorem tokens?_stringLiteral (text : String) {rest : List Char} (hrest : afterWord? rest = none) :
    tokens? (fuel + 1) inside ((Text.stringLiteral text).toList ++ rest) =
      (tokens? fuel inside rest).map fun (more, after) =>
        (.literal (Text.stringLiteral text) :: more, after) := by
  have hleaf := leaf?_stringLiteral text hrest
  rw [toList_stringLiteral, List.cons_append] at hleaf ⊢
  exact tokens?_of_leaf? (skipSpace_eq_self rfl rfl) rfl rfl rfl hleaf

/-- A group comes before the tokens of what follows its end. -/
theorem tokens?_bracket {cs rest : List Char} {content : List Token}
    (h : tokens? fuel (some .bracket) cs = some (content, rest)) :
    tokens? (fuel + 1) inside ('[' :: cs) =
      (tokens? fuel inside rest).map fun (more, after) =>
        (.group .bracket content :: more, after) := by
  have hgroup : tokens? (fuel + 1) inside ('[' :: cs) = do
      let (content, rest) ← tokens? fuel (some .bracket) cs
      let (more, after) ← tokens? fuel inside rest
      return (.group .bracket content :: more, after) := rfl
  rw [hgroup, h, Option.map_eq_bind]
  rfl

theorem tokens?_docAssignment (text : String) (rest : List Char) :
    tokens? (fuel + 4) (some .bracket)
        ("doc = ".toList ++ ((Text.stringLiteral text).toList ++ ']' :: rest)) =
      some (word "doc" ++ op "=" ++ [.literal (Text.stringLiteral text)], rest) := by
  generalize hvalue : (Text.stringLiteral text).toList ++ ']' :: rest = value
  have hword : leaf? ("doc".toList ++ " = ".toList ++ value) =
      some (.word (taken ("doc".toList ++ " = ".toList ++ value) (" = ".toList ++ value)),
        " = ".toList ++ value) := rfl
  rw [List.append_assoc, taken_append] at hword
  have hstart : tokens? (fuel + 4) (some .bracket) ("doc = ".toList ++ value) =
      (tokens? (fuel + 3) (some .bracket) (" = ".toList ++ value)).map fun (more, after) =>
        (.word "doc" :: more, after) := tokens?_of_leaf? rfl rfl rfl rfl hword
  have hsign : tokens? (fuel + 3) (some .bracket) (" = ".toList ++ value) =
      (tokens? (fuel + 2) (some .bracket) (' ' :: value)).map fun (more, after) =>
        (.sign '=' false :: more, after) := by
    change tokens? (fuel + 3) (some .bracket) (' ' :: '=' :: ' ' :: value) = _
    rw [tokens?_spacing rfl]
    exact tokens?_of_leaf? rfl rfl rfl rfl rfl
  have hclose : tokens? (fuel + 1) (some .bracket) (']' :: rest) = some ([], rest) := rfl
  rw [hstart, hsign, tokens?_spacing rfl, ← hvalue, tokens?_stringLiteral text rfl, hclose]
  rfl

/-- An attribute that documents something is code whatever it says. -/
theorem tokens?_docAttribute (text : String) (rest : List Char) :
    tokens? (fuel + 6) inside
        ("#[doc = ".toList ++ ((Text.stringLiteral text).toList ++ ']' :: rest)) =
      (tokens? (fuel + 4) inside rest).map fun (more, after) =>
        (docAttribute false text ++ more, after) := by
  have hcontent : tokens? (fuel + 4) (some .bracket)
      ("doc = ".toList ++ ((Text.stringLiteral text).toList ++ ']' :: rest)) = _ :=
    tokens?_docAssignment text rest
  generalize (Text.stringLiteral text).toList ++ ']' :: rest = value at hcontent
  have hsign : tokens? (fuel + 6) inside ("#[doc = ".toList ++ value) =
      (tokens? (fuel + 5) inside ('[' :: ("doc = ".toList ++ value))).map fun (more, after) =>
        (.sign '#' false :: more, after) := tokens?_of_leaf? rfl rfl rfl rfl rfl
  rw [hsign, tokens?_bracket hcontent, Option.map_map]
  rfl

end ForeignWrap.Code
