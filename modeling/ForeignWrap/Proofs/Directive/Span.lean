import ForeignWrap.Proofs.Directive.Token

/-!
# Where tokens stand in their line

Each token is the part of its line that its span tells, the spans follow one another, and what no
span tells is white space that makes gaps. A literal ends at the first quote after its own, and a
word at the first character that belongs to no word.

## Main definitions

* `ForeignWrap.Directive.EndsWord`: the characters that belong to no word.
* `ForeignWrap.Directive.Cut`: a line that is cut into tokens without loss.
* `ForeignWrap.Directive.tokenize_eq_ok_iff_cut`: the scan cuts lines so, and no others.
-/

namespace ForeignWrap.Directive

/-- The characters that belong to no word: white space of any kind, and quotes. -/
def EndsWord (c : Char) : Prop :=
  Text.isBlank c = true ∨ c = '"'

@[simp] theorem endsWord_iff {c : Char} : EndsWord c ↔ isWordChar c = false := by
  simp [EndsWord, isWordChar, or_iff_not_imp_left]

/-- The bytes that gaps are made of: space, tab, carriage return, line feed and form feed. -/
def gapBytes : List UInt8 :=
  [0x20, 0x09, 0x0D, 0x0A, 0x0C]

/-! ## What a cut is -/

/-- `text` is a literal: it stands between two quotes and holds no other. -/
def IsLiteral (text : String) : Prop :=
  2 ≤ text.length ∧ ∃ code, text = "\"" ++ code ++ "\"" ∧ '"' ∉ code.toList

/-- `text` stands at byte `start` of a line, and is a whole word there: neither the character before
it nor the one after it belongs to a word. -/
inductive IsWordAt (line : String) (start : Nat) (text : String) : Prop where
  | word {before after : String} :
      line = before ++ text ++ after → before.utf8ByteSize = start →
      text ≠ "" → (∀ c ∈ text.toList, ¬ EndsWord c) →
      (∀ c, before.toList.getLast? = some c → EndsWord c) →
      (∀ c, after.toList.head? = some c → EndsWord c) → IsWordAt line start text

/-- A line that is cut into tokens: nothing of it is lost but the gaps. -/
structure Cut (line : String) (tokens : List Token) : Prop where
  /-- Each token ends where the next one begins, or before that. -/
  spans_ordered : tokens.Pairwise (·.stop ≤ ·.start)
  span_ne_empty : ∀ token ∈ tokens, token.start < token.stop
  span_le : ∀ token ∈ tokens, token.stop ≤ line.utf8ByteSize
  text_eq : ∀ token ∈ tokens, token.text.toUTF8 = line.toUTF8.extract token.start token.stop
  /-- What no token covers makes gaps. -/
  gap_of_uncovered : ∀ i (h : i < line.toUTF8.size),
    (∀ token ∈ tokens, i < token.start ∨ token.stop ≤ i) → line.toUTF8[i] ∈ gapBytes
  literal : ∀ token ∈ tokens, token.kind = .literal → IsLiteral token.text
  word : ∀ token ∈ tokens, token.kind ≠ .literal → IsWordAt line token.start token.text
  keyword_iff : ∀ token ∈ tokens, token.kind ≠ .literal →
    (token.kind = .keyword ↔ token.text = "//wrap:expr")
  separator_iff : ∀ token ∈ tokens, token.kind ≠ .literal →
    (token.kind = .separator ↔ token.text = ":")

/-! ## Bytes -/

theorem size_utf8Encode (cs : List Char) : cs.utf8Encode.size = bytes cs := by
  induction cs with
  | nil => rfl
  | cons c cs ih =>
    rw [List.utf8Encode_cons, ByteArray.size_append, ih, List.utf8Encode_singleton]
    simp

theorem utf8ByteSize_eq (s : String) : s.utf8ByteSize = bytes s.toList := by
  rw [← size_utf8Encode, String.utf8Encode_toList, String.size_toByteArray]

/-- Characters that begin with the bytes of others begin with these. -/
theorem prefix_of_utf8Encode_eq_append {cs ds : List Char} {rest : ByteArray}
    (h : cs.utf8Encode = ds.utf8Encode ++ rest) : ds <+: cs := by
  induction ds generalizing cs with
  | nil => exact List.nil_prefix
  | cons d ds ih =>
    cases cs with
    | nil =>
      obtain ⟨hd, -⟩ := ByteArray.append_eq_empty_iff.1 h.symm
      simp at hd
    | cons c cs =>
      -- What is decoded first is the first character, whatever comes after it.
      have hhead := congrArg (ByteArray.utf8DecodeChar? · 0) h
      rw [List.utf8Encode_cons (l := ds), ByteArray.append_assoc] at h hhead
      simp only [List.utf8DecodeChar?_utf8Encode_cons,
        List.utf8DecodeChar?_utf8Encode_singleton_append, Option.some.injEq] at hhead
      subst hhead
      rw [List.utf8Encode_cons, ByteArray.append_right_inj] at h
      exact List.cons_prefix_cons.2 ⟨rfl, ih h⟩

/-- Where a line is cut is told by the bytes before the cut. -/
theorem eq_of_append_eq_append {before after before' after' : List Char}
    (h : before ++ after = before' ++ after') (hbytes : bytes before = bytes before') :
    before = before' ∧ after = after' := by
  induction before generalizing before' with
  | nil =>
    cases before' with
    | nil => exact ⟨rfl, h⟩
    | cons c rest =>
      have hpos := c.utf8Size_pos
      simp only [bytes_nil, bytes_cons] at hbytes
      omega
  | cons c rest ih =>
    cases before' with
    | nil =>
      have hpos := c.utf8Size_pos
      simp only [bytes_nil, bytes_cons] at hbytes
      omega
    | cons c' rest' =>
      obtain ⟨rfl, hrest⟩ := List.cons.inj h
      obtain ⟨rfl, rfl⟩ := ih hrest (by simpa using hbytes)
      exact ⟨rfl, rfl⟩

/-- A gap is one byte. -/
theorem utf8Size_of_isGap {c : Char} (hgap : isGap c = true) : c.utf8Size = 1 := by
  simp only [isGap, Bool.or_eq_true, beq_iff_eq] at hgap
  obtain (((rfl | rfl) | rfl) | rfl) | rfl := hgap <;> rfl

theorem getElem_utf8Encode_of_isGap {c : Char} {i : Nat} (hgap : isGap c = true)
    (h : i < [c].utf8Encode.size) : [c].utf8Encode[i] ∈ gapBytes := by
  have hi : i = 0 := by
    rw [size_utf8Encode, bytes_cons, utf8Size_of_isGap hgap, bytes_nil] at h
    omega
  subst hi
  simp only [isGap, Bool.or_eq_true, beq_iff_eq] at hgap
  obtain (((rfl | rfl) | rfl) | rfl) | rfl := hgap <;> decide +revert

theorem exists_isGap_of_mem_gapBytes {b : UInt8} (hb : b ∈ gapBytes) :
    ∃ c, isGap c = true ∧ [c].utf8Encode = [b].toByteArray := by
  simp only [gapBytes, List.mem_cons, List.not_mem_nil, or_false] at hb
  obtain rfl | rfl | rfl | rfl | rfl := hb
  · exact ⟨' ', rfl, rfl⟩
  · exact ⟨'\t', rfl, rfl⟩
  · exact ⟨'\r', rfl, rfl⟩
  · exact ⟨'\n', rfl, rfl⟩
  · exact ⟨'\x0c', rfl, rfl⟩

/-- Characters that begin with the byte of a gap begin with a gap. -/
theorem isGap_of_getElem_mem_gapBytes {c : Char} {rest : List Char}
    (h : 0 < (c :: rest).utf8Encode.size) (hb : (c :: rest).utf8Encode[0] ∈ gapBytes) :
    isGap c = true := by
  obtain ⟨d, hd, hbyte⟩ := exists_isGap_of_mem_gapBytes hb
  have hfirst : (c :: rest).utf8Encode = [d].utf8Encode ++
      (c :: rest).utf8Encode.extract 1 (c :: rest).utf8Encode.size := by
    rw [hbyte, ← ByteArray.extract_add_one (i := 0) (by omega),
      ← ByteArray.extract_eq_extract_append_extract 1 (by omega) (by omega),
      ByteArray.extract_zero_size]
  obtain ⟨rfl, -⟩ := List.cons_prefix_cons.1 (prefix_of_utf8Encode_eq_append hfirst)
  exact hd

/-! ## Spans -/

section Spans

variable {start : Nat} {cs : List Char} {tokens : List Token}

theorem Token.Formed.bytes_pos {token : Token} (h : token.Formed) :
    0 < bytes token.text.toList := by
  rw [← utf8ByteSize_eq]
  have hne : token.text.utf8ByteSize ≠ 0 := by
    simpa [String.utf8ByteSize_eq_zero_iff] using h.text_ne_empty
  omega

/-- Each token takes some of the characters, after those that the tokens before it take. -/
theorem Spells.spans (h : Spells start cs tokens) :
    tokens.Pairwise (·.stop ≤ ·.start) ∧
      ∀ token ∈ tokens, start ≤ token.start ∧ token.start < token.stop ∧
        token.stop ≤ start + bytes cs := by
  induction h with
  | done => simp
  | @gap start c rest tokens _ _ ih =>
    refine ⟨ih.1, fun token htoken => ?_⟩
    have hspan := ih.2 token htoken
    simp only [bytes_cons]
    omega
  | @token first after tokens hspelled hstop _ _ ih =>
    have hpos := hspelled.formed.bytes_pos
    simp only [bytes_append]
    refine ⟨List.pairwise_cons.2 ⟨fun t ht => (ih.2 t ht).1, ih.1⟩, ?_⟩
    rw [List.forall_mem_cons]
    refine ⟨by omega, fun t ht => ?_⟩
    have hspan := ih.2 t ht
    omega

/-- What no token covers makes gaps. -/
theorem Spells.gap_of_uncovered (h : Spells start cs tokens) {i : Nat} (hi : i < cs.utf8Encode.size)
    (huncovered : ∀ token ∈ tokens, start + i < token.start ∨ token.stop ≤ start + i) :
    cs.utf8Encode[i] ∈ gapBytes := by
  induction h generalizing i with
  | done => simp at hi
  | @gap start c rest tokens hgap _ ih =>
    have hsize : [c].utf8Encode.size = c.utf8Size := by simp [size_utf8Encode]
    simp only [List.utf8Encode_cons (l := rest)] at hi ⊢
    by_cases hfirst : i < c.utf8Size
    · rw [ByteArray.getElem_append_left (by omega)]
      exact getElem_utf8Encode_of_isGap hgap _
    · rw [ByteArray.getElem_append_right (by omega)]
      refine ih _ fun token htoken => ?_
      have hout := huncovered token htoken
      omega
  | @token first after tokens hspelled hstop _ _ ih =>
    have hsize := size_utf8Encode first.text.toList
    have hout := huncovered first List.mem_cons_self
    simp only [List.utf8Encode_append] at hi ⊢
    rw [ByteArray.getElem_append_right (by omega)]
    refine ih _ fun token htoken => ?_
    have hout' := huncovered token (List.mem_cons_of_mem _ htoken)
    omega

end Spans

/-! ## Places -/

/-- A token is the part of a line that its span tells. A word has no word character beside it. -/
inductive Token.PlacedIn (line : List Char) (token : Token) : Prop where
  | placed {before after : List Char} :
      line = before ++ (token.text.toList ++ after) → token.start = bytes before →
      token.stop = token.start + bytes token.text.toList → token.Spelled →
      (token.kind ≠ .literal → ∀ c, before.getLast? = some c → isWordChar c = false) →
      (token.kind ≠ .literal → ∀ c, after.head? = some c → isWordChar c = false) →
      token.PlacedIn line

/-- No word goes on from `before` to `after`. -/
def WordsEndBetween (before after : List Char) : Prop :=
  ∀ c d, before.getLast? = some c → after.head? = some d →
    isWordChar c = false ∨ isWordChar d = false

theorem not_isWordChar_of_isGap {c : Char} (hgap : isGap c = true) : isWordChar c = false := by
  by_contra hword
  simp only [isWordChar, Bool.not_eq_false, Bool.and_eq_true, Bool.not_eq_true'] at hword
  simp [not_isGap_of_not_isBlank hword.1] at hgap

/-- Words end where a token does: a literal ends with a quote, and a word where no word character
comes next. -/
theorem Token.Spelled.wordsEndBetween {token : Token} (hspelled : token.Spelled)
    {before after : List Char}
    (hafter : token.kind ≠ .literal → ∀ c, after.head? = some c → isWordChar c = false) :
    WordsEndBetween (before ++ token.text.toList) after := by
  intro c d hc hd
  cases hspelled with
  | literal _ =>
    left
    rw [String.toList_ofList, ← List.append_assoc, List.getLast?_concat] at hc
    obtain rfl := Option.some.inj hc
    rfl
  | word hne hword => exact .inr (hafter (wordKind_ne_literal _) d hd)

/-- Each token is where its span says, if no word goes on over the start. -/
theorem Spells.placed {start : Nat} {cs : List Char} {tokens : List Token}
    (h : Spells start cs tokens) {before : List Char} (hstart : start = bytes before)
    (hbetween : WordsEndBetween before cs) : ∀ token ∈ tokens, token.PlacedIn (before ++ cs) := by
  induction h generalizing before with
  | done => simp
  | @gap start c rest tokens hgap _ ih =>
    rw [← List.singleton_append, ← List.append_assoc]
    refine ih (by simp [hstart]) fun d e hd _ => ?_
    obtain rfl : c = d := by simpa using hd
    exact .inl (not_isWordChar_of_isGap hgap)
  | @token first after tokens hspelled hstop hafter _ ih =>
    have hfirst : first.PlacedIn (before ++ (first.text.toList ++ after)) := by
      refine .placed rfl hstart hstop hspelled (fun hkind c hc => ?_) hafter
      cases hspelled with
      | literal _ => exact absurd rfl hkind
      | @word word start stop hne hword =>
        obtain ⟨d, rest, rfl⟩ := List.exists_cons_of_ne_nil hne
        have hd := hword d List.mem_cons_self
        simpa [hd] using hbetween c d hc (by simp)
    refine List.forall_mem_cons.2 ⟨hfirst, ?_⟩
    rw [← List.append_assoc]
    exact ih (by simp [hstop, hstart]) (hspelled.wordsEndBetween hafter)

/-- A token that is placed in a line has the bytes of its span. -/
theorem Token.PlacedIn.text_eq {line : String} {token : Token} (h : token.PlacedIn line.toList) :
    token.text.toUTF8 = line.toUTF8.extract token.start token.stop := by
  cases h with
  | @placed before after hline hstart hstop _ _ _ =>
    have hstart' : token.start = before.utf8Encode.size + 0 := by
      rw [size_utf8Encode, hstart, Nat.add_zero]
    have hstop' : token.stop = before.utf8Encode.size + token.text.toList.utf8Encode.size := by
      rw [size_utf8Encode, size_utf8Encode, hstop, hstart]
    simp only [String.toUTF8_eq_toByteArray, ← String.utf8Encode_toList, hline,
      List.utf8Encode_append]
    rw [hstart', hstop', ByteArray.extract_append_size_add, ByteArray.extract_append_eq_left rfl]

theorem Token.PlacedIn.isWordAt {line : String} {token : Token} (h : token.PlacedIn line.toList)
    (hkind : token.kind ≠ .literal) : IsWordAt line token.start token.text := by
  cases h with
  | @placed before after hline hstart _ hspelled hbefore hafter =>
    have hword : ∀ c ∈ token.text.toList, ¬ EndsWord c := by
      cases hspelled with
      | literal _ => exact absurd rfl hkind
      | word _ hword =>
        intro c hc
        rw [String.toList_ofList] at hc
        simp [hword c hc]
    refine @IsWordAt.word _ _ _ (String.ofList before) (String.ofList after) ?_ ?_
      hspelled.formed.text_ne_empty hword ?_ ?_
    · rw [← String.toList_inj, hline]
      simp
    · rw [utf8ByteSize_eq, String.toList_ofList, hstart]
    · simpa [endsWord_iff] using hbefore hkind
    · simpa [endsWord_iff] using hafter hkind

theorem Token.Spelled.isLiteral {token : Token} (h : token.Spelled)
    (hkind : token.kind = .literal) : IsLiteral token.text := by
  cases h with
  | @literal code _ _ hcode =>
    refine ⟨?_, String.ofList code, ?_, by simpa using hcode⟩
    · rw [← String.length_toList, String.toList_ofList]
      simp
    · rw [← String.toList_inj]
      simp
  | word _ _ => exact absurd hkind (wordKind_ne_literal _)

theorem Token.Spelled.kind_eq {token : Token} (h : token.Spelled) (hkind : token.kind ≠ .literal) :
    token.kind = wordKind token.text := by
  cases h with
  | literal _ => exact absurd rfl hkind
  | word _ _ => rfl

theorem wordKind_eq_keyword_iff {text : String} :
    wordKind text = .keyword ↔ text = directiveKeyword := by
  unfold wordKind
  split
  · simp_all
  · split <;> simp_all

theorem wordKind_eq_separator_iff {text : String} : wordKind text = .separator ↔ text = ":" := by
  unfold wordKind
  split
  · rename_i h
    subst h
    decide
  · split <;> simp_all

/-- The kind of a word is told by which two texts have kinds of their own. -/
theorem eq_wordKind_of_iff {kind : TokenKind} {text : String} (hkind : kind ≠ .literal)
    (hkeyword : kind = .keyword ↔ text = directiveKeyword)
    (hseparator : kind = .separator ↔ text = ":") : kind = wordKind text := by
  rw [← wordKind_eq_keyword_iff] at hkeyword
  rw [← wordKind_eq_separator_iff] at hseparator
  have hliteral := wordKind_ne_literal text
  cases kind <;> cases hword : wordKind text <;> simp_all

/-! ## Cuts -/

/-- The bytes of the two parts of a line. -/
theorem toUTF8_of_toList_eq_append {line : String} {before after : List Char}
    (hline : line.toList = before ++ after) :
    line.toUTF8 = before.utf8Encode ++ after.utf8Encode := by
  rw [String.toUTF8_eq_toByteArray, ← String.utf8Encode_toList, hline, List.utf8Encode_append]

section Cuts

variable {line : String} {tokens : List Token} {token : Token}

/-- A token that begins where some characters of its line do is the text that they begin with. -/
theorem Cut.exists_eq_append (hcut : Cut line tokens) (htoken : token ∈ tokens)
    {before cs : List Char} (hline : line.toList = before ++ cs)
    (hstart : token.start = bytes before) :
    ∃ after, cs = token.text.toList ++ after ∧
      token.stop = token.start + bytes token.text.toList := by
  have hle := hcut.span_le token htoken
  have hne := hcut.span_ne_empty token htoken
  rw [utf8ByteSize_eq, hline, bytes_append] at hle
  have hbefore := size_utf8Encode before
  have hcs := size_utf8Encode cs
  obtain ⟨n, hn⟩ : ∃ n, token.stop = before.utf8Encode.size + n :=
    ⟨token.stop - bytes before, by omega⟩
  have hstart' : token.start = before.utf8Encode.size + 0 := by omega
  have htext : token.text.toList.utf8Encode = cs.utf8Encode.extract 0 n := by
    rw [String.utf8Encode_toList, ← String.toUTF8_eq_toByteArray, hcut.text_eq token htoken,
      toUTF8_of_toList_eq_append hline, hstart', hn, ByteArray.extract_append_size_add]
  have hsize : bytes token.text.toList = n := by
    rw [← size_utf8Encode, htext, ByteArray.size_extract]
    omega
  have hprefix : cs.utf8Encode =
      token.text.toList.utf8Encode ++ cs.utf8Encode.extract n cs.utf8Encode.size := by
    rw [htext, ← ByteArray.extract_eq_extract_append_extract n (by omega) (by omega),
      ByteArray.extract_zero_size]
  obtain ⟨after, hafter⟩ := prefix_of_utf8Encode_eq_append hprefix
  exact ⟨after, hafter.symm, by omega⟩

/-- A token of a cut is spelled as its kind asks for. -/
theorem Cut.spelled (hcut : Cut line tokens) (htoken : token ∈ tokens) : token.Spelled := by
  have hliteral := hcut.literal token htoken
  have hword := hcut.word token htoken
  have hkeyword := hcut.keyword_iff token htoken
  have hseparator := hcut.separator_iff token htoken
  obtain ⟨kind, text, start, stop⟩ := token
  by_cases hkind : kind = .literal
  · subst hkind
    obtain ⟨-, code, rfl, hcode⟩ := hliteral rfl
    have htext : "\"" ++ code ++ "\"" = String.ofList ('"' :: code.toList ++ ['"']) := by
      rw [← String.toList_inj]
      simp
    rw [htext]
    exact .literal hcode
  · obtain ⟨-, -, hne, hchars, -, -⟩ := hword hkind
    have hwordKind : kind = wordKind (String.ofList text.toList) := by
      rw [String.ofList_toList]
      exact eq_wordKind_of_iff hkind (hkeyword hkind) (hseparator hkind)
    have h : Token.Spelled ⟨wordKind (String.ofList text.toList), String.ofList text.toList, start,
        stop⟩ := .word (by simpa using hne) fun c hc => by simpa [endsWord_iff] using hchars c hc
    rwa [← hwordKind, String.ofList_toList] at h

/-- Where no token covers the first of some characters, it makes a gap. -/
theorem Cut.isGap (hcut : Cut line tokens) {before rest : List Char} {c : Char}
    (hline : line.toList = before ++ c :: rest)
    (huncovered : ∀ token ∈ tokens, bytes before < token.start ∨ token.stop ≤ bytes before) :
    isGap c = true := by
  have hpos : 0 < (c :: rest).utf8Encode.size := by
    have hc := c.utf8Size_pos
    rw [size_utf8Encode, bytes_cons]
    omega
  have hbytes := toUTF8_of_toList_eq_append hline
  have hsize := size_utf8Encode before
  have hbyte := hcut.gap_of_uncovered (bytes before)
    (by rw [hbytes, ByteArray.size_append]; omega) huncovered
  simp only [hbytes] at hbyte
  rw [ByteArray.getElem_append_right (by omega)] at hbyte
  refine isGap_of_getElem_mem_gapBytes hpos ?_
  convert hbyte using 2
  omega

/-- What stands after a word of a cut is no word character. -/
theorem Cut.not_isWordChar_after (hcut : Cut line tokens) (htoken : token ∈ tokens)
    (hkind : token.kind ≠ .literal) {before after : List Char}
    (hline : line.toList = before ++ (token.text.toList ++ after))
    (hstart : token.start = bytes before) :
    ∀ c, after.head? = some c → isWordChar c = false := by
  obtain ⟨hline', hstart', -, -, -, hafter⟩ := hcut.word token htoken hkind
  rename_i before' after'
  rw [utf8ByteSize_eq, hstart] at hstart'
  have hsplit : before ++ (token.text.toList ++ after) =
      before'.toList ++ (token.text.toList ++ after'.toList) := by
    rw [← hline, hline']
    simp
  have hrest := List.append_cancel_left (eq_of_append_eq_append hsplit hstart'.symm).2
  simpa [hrest, endsWord_iff] using hafter

/-- Tokens in the order of a cut begin after a place if the first of them does. -/
theorem Cut.lt_start_of_head (hcut : Cut line tokens) {earlier later : List Token} {place : Nat}
    (htokens : tokens = earlier ++ later) (hlater : ∀ token ∈ later, place ≤ token.start)
    (hhead : ∀ first, later.head? = some first → first.start ≠ place) :
    ∀ token ∈ later, place < token.start := by
  subst htokens
  cases later with
  | nil => simp
  | cons first others =>
    have hordered := (List.pairwise_append.1 hcut.spans_ordered).2.1
    have hspan := hcut.span_ne_empty first (by simp)
    have hfirst := hlater first List.mem_cons_self
    have hne := hhead first rfl
    refine List.forall_mem_cons.2 ⟨by omega, fun t ht => ?_⟩
    have hnext := (List.pairwise_cons.1 hordered).1 t ht
    omega

/-- Characters of a line that is cut spell the tokens that begin among them, if no token goes on
from the characters before them. -/
theorem Cut.spells_of_append {earlier later : List Token} (hcut : Cut line (earlier ++ later))
    {before cs : List Char} (hline : line.toList = before ++ cs)
    (hearlier : ∀ token ∈ earlier, token.stop ≤ bytes before)
    (hlater : ∀ token ∈ later, bytes before ≤ token.start) : Spells (bytes before) cs later := by
  induction hn : cs.length using Nat.strong_induction_on generalizing before cs earlier later with
  | _ n ih =>
  by_cases hhead : ∃ first, later.head? = some first ∧ first.start = bytes before
  · -- A token begins here, and the rest of the tokens after its end.
    obtain ⟨first, hfirst, hstart⟩ := hhead
    obtain ⟨others, rfl⟩ := List.head?_eq_some_iff.1 hfirst
    have hmem : first ∈ earlier ++ first :: others := by simp
    obtain ⟨after, rfl, hstop⟩ := hcut.exists_eq_append hmem hline hstart
    have hspelled := hcut.spelled hmem
    have hend : first.stop = bytes (before ++ first.text.toList) := by simp [hstop, hstart]
    have hordered := (List.pairwise_append.1 hcut.spans_ordered).2.1
    have hcut' : Cut line ((earlier ++ [first]) ++ others) := by simpa using hcut
    have hrest : Spells first.stop after others := by
      rw [hend]
      refine ih after.length ?_ hcut' (by simpa using hline) ?_ ?_ rfl
      · have hne : first.text.toList ≠ [] := by simpa using hspelled.formed.text_ne_empty
        have hpos := List.length_pos_iff.2 hne
        simp only [List.length_append] at hn
        omega
      · intro t ht
        obtain ht | rfl := by simpa using ht
        · have hle := hearlier t ht
          simp only [bytes_append]
          omega
        · omega
      · intro t ht
        rw [← hend]
        exact (List.pairwise_cons.1 hordered).1 t ht
    rw [← hstart]
    exact .token hspelled hstop (fun hkind => hcut.not_isWordChar_after hmem hkind hline hstart)
      hrest
  · -- No token begins here, so a gap does.
    have hlater' := hcut.lt_start_of_head rfl hlater fun first hfirst hstart =>
      hhead ⟨first, hfirst, hstart⟩
    cases cs with
    | nil =>
      cases later with
      | nil => exact .done
      | cons first others =>
        have hbegin := hlater' first List.mem_cons_self
        have hspan := hcut.span_ne_empty first (by simp)
        have hle := hcut.span_le first (by simp)
        rw [utf8ByteSize_eq, hline, List.append_nil] at hle
        omega
    | cons c rest =>
      have hgap : ForeignWrap.Directive.isGap c = true := by
        refine hcut.isGap hline fun token htoken => ?_
        obtain htoken | htoken := List.mem_append.1 htoken
        · exact .inr (hearlier token htoken)
        · exact .inl (hlater' token htoken)
      have hsize := utf8Size_of_isGap hgap
      have hend : bytes before + c.utf8Size = bytes (before ++ [c]) := by simp
      refine .gap hgap ?_
      rw [hend]
      refine ih rest.length (by simp at hn; omega) hcut (by simpa using hline) ?_ ?_ rfl
      · intro t ht
        have hle := hearlier t ht
        omega
      · intro t ht
        have hlt := hlater' t ht
        omega

end Cuts

theorem cut_of_tokenize_eq_ok {line : String} {tokens : List Token}
    (h : tokenize line = .ok tokens) : Cut line tokens := by
  have hspells := tokenize_eq_ok_iff.1 h
  have hbetween : WordsEndBetween [] line.toList := by simp [WordsEndBetween]
  have hplaced : ∀ token ∈ tokens, token.PlacedIn line.toList := hspells.placed rfl hbetween
  have hspelled := hspells.spelled_of_mem
  obtain ⟨hordered, hspan⟩ := hspells.spans
  exact {
    spans_ordered := hordered
    span_ne_empty := fun t ht => (hspan t ht).2.1
    span_le := fun t ht => by
      rw [utf8ByteSize_eq]
      have hle := (hspan t ht).2.2
      omega
    text_eq := fun t ht => (hplaced t ht).text_eq
    gap_of_uncovered := fun i hi huncovered => by
      simp only [String.toUTF8_eq_toByteArray, ← String.utf8Encode_toList] at hi ⊢
      exact hspells.gap_of_uncovered hi (by simpa using huncovered)
    literal := fun t ht => (hspelled t ht).isLiteral
    word := fun t ht => (hplaced t ht).isWordAt
    keyword_iff := fun t ht hkind => by
      rw [(hspelled t ht).kind_eq hkind, wordKind_eq_keyword_iff, directiveKeyword]
    separator_iff := fun t ht hkind => by
      rw [(hspelled t ht).kind_eq hkind, wordKind_eq_separator_iff] }

/-- **The scan of a line finds the tokens that the line is cut into without loss**, and it fails
only where a line cannot be cut so. -/
theorem tokenize_eq_ok_iff_cut {line : String} {tokens : List Token} :
    tokenize line = .ok tokens ↔ Cut line tokens := by
  refine ⟨cut_of_tokenize_eq_ok, fun hcut => tokenize_eq_ok_iff.2 ?_⟩
  have hcut' : Cut line ([] ++ tokens) := hcut
  exact hcut'.spells_of_append (List.nil_append _).symm (by simp) (by simp)

end ForeignWrap.Directive
