import ForeignWrap.Directive.Token
import ForeignWrap.Proofs.Results
import Mathlib.Data.List.TakeWhile

/-!
# The tokens that a line can have

A line spells tokens: literals with their quotes and words, with gaps between them where they would
run together. The scan of a line finds the tokens that it spells, and it finds tokens in no other
line.

## Main definitions

* `ForeignWrap.Directive.Token.Spelled`: what every token of a line is.
* `ForeignWrap.Directive.Spells`: the tokens that characters spell, one after the other.
* `ForeignWrap.Directive.tokensFrom_eq_ok_iff`: the scan finds exactly these.
-/

namespace ForeignWrap.Directive

/-! ## Single tokens -/

/-- A token as it is spelled: code without quotes between two of them, or a word. -/
inductive Token.Spelled : Token → Prop where
  | literal {code : List Char} {start stop : Nat} :
      '"' ∉ code → Spelled ⟨.literal, String.ofList ('"' :: code ++ ['"']), start, stop⟩
  | word {word : List Char} {start stop : Nat} :
      word ≠ [] → (∀ c ∈ word, isWordChar c = true) →
      Spelled ⟨wordKind (String.ofList word), String.ofList word, start, stop⟩

/-- A token that has some text, and quotes if it is a literal. -/
structure Token.Formed (token : Token) : Prop where
  text_ne_empty : token.text ≠ ""
  quoted : token.kind = .literal → ∃ code, token.text = "\"" ++ code ++ "\""

/-- A word is no literal, whatever its text. -/
theorem wordKind_ne_literal (text : String) : wordKind text ≠ .literal := by
  unfold wordKind
  split
  · simp
  · split <;> simp

theorem Token.Spelled.formed {token : Token} (h : token.Spelled) : token.Formed := by
  cases h with
  | @literal code _ _ _ =>
    refine ⟨fun h => by simpa using congrArg String.toList h, fun _ => ⟨String.ofList code, ?_⟩⟩
    rw [← String.toList_inj]
    simp
  | word hne _ =>
    exact ⟨fun h => hne (by simpa using congrArg String.toList h),
      fun h => absurd h (wordKind_ne_literal _)⟩

/-! ## The tokens of a line -/

/-- The tokens that characters spell which begin at byte `start` of their line. A word ends only
where no character that could be part of it comes next. -/
inductive Spells : (start : Nat) → List Char → List Token → Prop where
  | done {start : Nat} : Spells start [] []
  | gap {start : Nat} {c : Char} {rest : List Char} {tokens : List Token} :
      isGap c = true → Spells (start + c.utf8Size) rest tokens → Spells start (c :: rest) tokens
  | token {token : Token} {after : List Char} {tokens : List Token} :
      token.Spelled → token.stop = token.start + bytes token.text.toList →
      (token.kind ≠ .literal → ∀ c, after.head? = some c → isWordChar c = false) →
      Spells token.stop after tokens →
      Spells token.start (token.text.toList ++ after) (token :: tokens)

@[simp] theorem bytes_nil : bytes [] = 0 :=
  rfl

@[simp] theorem bytes_cons (c : Char) (cs : List Char) : bytes (c :: cs) = c.utf8Size + bytes cs :=
  rfl

@[simp] theorem bytes_append (cs ds : List Char) : bytes (cs ++ ds) = bytes cs + bytes ds := by
  induction cs with
  | nil => simp
  | cons c cs ih => simp [ih, Nat.add_assoc]

theorem utf8Size_quote : '"'.utf8Size = 1 :=
  rfl

/-- What makes a gap is white space. -/
theorem not_isGap_of_not_isBlank {c : Char} (h : Text.isBlank c = false) : isGap c = false := by
  by_contra hgap
  simp only [isGap, Bool.not_eq_false, Bool.or_eq_true, beq_iff_eq] at hgap
  obtain (((rfl | rfl) | rfl) | rfl) | rfl := hgap <;> exact absurd h (by decide)

/-- What follows a run of word characters is no word character. -/
theorem head?_dropWhile_isWordChar {rest : List Char} {c : Char}
    (h : (rest.dropWhile isWordChar).head? = some c) : isWordChar c = false := by
  have hhead := List.head?_dropWhile_not isWordChar rest
  rw [h] at hhead
  simpa using hhead

/-! ## The scan -/

/-- A step of the scan over a literal. -/
theorem tokensFrom_literal {start : Nat} {code after : List Char} (hcode : '"' ∉ code) :
    tokensFrom start ('"' :: code ++ '"' :: after) =
      (tokensFrom (start + bytes code + 2) after).map
        (⟨.literal, String.ofList ('"' :: code ++ ['"']), start, start + bytes code + 2⟩ :: ·) := by
  have hinside : ∀ c ∈ code, (c != '"') = true := by
    intro c hc
    have hne : c ≠ '"' := fun h => hcode (h ▸ hc)
    simpa using hne
  have htake : (code ++ '"' :: after).takeWhile (· != '"') = code := by
    rw [List.takeWhile_append_of_pos hinside]
    simp
  have hdrop : (code ++ '"' :: after).dropWhile (· != '"') = '"' :: after := by
    rw [List.dropWhile_append_of_pos hinside]
    simp
  rw [List.cons_append, tokensFrom]
  simp only [show isGap '"' = false from rfl, Bool.false_eq_true, if_false, if_true, htake]
  split
  case h_1 hnil => simp [hdrop] at hnil
  case h_2 hcons =>
    rw [hdrop] at hcons
    obtain rfl := (List.cons.inj hcons).2
    rfl

/-- A step of the scan over a word. -/
theorem tokensFrom_word {start : Nat} {word after : List Char} (hne : word ≠ [])
    (hword : ∀ c ∈ word, isWordChar c = true)
    (hafter : ∀ c, after.head? = some c → isWordChar c = false) :
    tokensFrom start (word ++ after) =
      (tokensFrom (start + bytes word) after).map
        (⟨wordKind (String.ofList word), String.ofList word, start, start + bytes word⟩ :: ·) := by
  obtain ⟨c, rest, rfl⟩ := List.exists_cons_of_ne_nil hne
  have hrest : ∀ c ∈ rest, isWordChar c = true := fun d hd => hword d (List.mem_cons_of_mem _ hd)
  have htake : after.takeWhile isWordChar = [] := by
    cases after with
    | nil => rfl
    | cons d ds => simp [hafter d rfl]
  have hdrop : after.dropWhile isWordChar = after := by
    cases after with
    | nil => rfl
    | cons d ds => simp [hafter d rfl]
  obtain ⟨hblank, hquote⟩ : Text.isBlank c = false ∧ c ≠ '"' := by
    simpa [isWordChar] using hword c List.mem_cons_self
  rw [List.cons_append, tokensFrom]
  simp only [not_isGap_of_not_isBlank hblank, hblank, hquote, Bool.false_eq_true, if_false,
    List.takeWhile_append_of_pos hrest, List.dropWhile_append_of_pos hrest, htake, hdrop,
    List.append_nil]

/-- A literal goes up to the next quote. -/
theorem quote_cons_eq_append {rest after : List Char} {quote : Char}
    (hdrop : rest.dropWhile (· != '"') = quote :: after) :
    '"' ∉ rest.takeWhile (· != '"') ∧
      '"' :: rest = ('"' :: rest.takeWhile (· != '"') ++ ['"']) ++ after := by
  have hquote : quote = '"' := by
    have hhead := List.head?_dropWhile_not (· != '"') rest
    rw [hdrop] at hhead
    simpa using hhead
  refine ⟨fun hc => by simpa using List.mem_takeWhile_imp hc, ?_⟩
  conv_lhs => rw [← List.takeWhile_append_dropWhile (p := (· != '"')) (l := rest), hdrop, hquote]
  simp

/-- What is neither blank nor a quote begins a word. -/
theorem isWordChar_of_mem_cons_takeWhile {c d : Char} {rest : List Char}
    (hblank : ¬ Text.isBlank c = true) (hquote : ¬ c = '"')
    (hd : d ∈ c :: rest.takeWhile isWordChar) : isWordChar d = true := by
  obtain rfl | hd := List.mem_cons.1 hd
  · simp [isWordChar, hblank, hquote]
  · exact List.mem_takeWhile_imp hd

/-- What the scan finds is spelled there. -/
theorem spells_of_tokensFrom_eq_ok {start : Nat} {cs : List Char} {tokens : List Token}
    (h : tokensFrom start cs = .ok tokens) : Spells start cs tokens := by
  fun_induction tokensFrom start cs generalizing tokens with
  | case1 start =>
    cases h
    exact .done
  | case2 start c rest hgap ih => exact .gap hgap (ih h)
  | case3 start rest hclose => cases h
  | case4 start rest code quote after hdrop stop hgap =>
    rename_i ih
    obtain ⟨others, hothers, rfl⟩ := map_eq_ok_iff.1 h
    obtain ⟨hcode : '"' ∉ code, hrest⟩ := quote_cons_eq_append hdrop
    have htext : '"' :: rest = (String.ofList ('"' :: code ++ ['"'])).toList ++ after := by
      rw [String.toList_ofList, hrest]
    rw [htext]
    refine .token (.literal hcode) ?_ (by simp) (ih hothers)
    simp [stop, utf8Size_quote]
    omega
  | case5 start c rest => cases h
  | case6 start c rest hgap hquote hblank word text stop =>
    rename_i ih
    obtain ⟨others, hothers, rfl⟩ := map_eq_ok_iff.1 h
    have hword : ∀ d ∈ word, isWordChar d = true :=
      fun _ => isWordChar_of_mem_cons_takeWhile hblank hquote
    have htext : c :: rest = (String.ofList word).toList ++ rest.dropWhile isWordChar := by
      simp [word]
    rw [htext]
    exact .token (.word (by simp [word]) hword) (by simp [stop])
      (fun _ d hd => head?_dropWhile_isWordChar hd) (ih hothers)

/-- The scan finds what is spelled. -/
theorem Spells.tokensFrom_eq_ok {start : Nat} {cs : List Char} {tokens : List Token}
    (h : Spells start cs tokens) : tokensFrom start cs = .ok tokens := by
  induction h with
  | done => rw [tokensFrom]
  | gap hgap _ ih =>
    rw [tokensFrom, if_pos hgap]
    exact ih
  | @token token after tokens hspelled hstop hafter _ ih =>
    cases hspelled with
    | @literal code start stop hcode =>
      obtain rfl : stop = start + bytes code + 2 := by
        simp only [String.toList_ofList, bytes_append, bytes_cons, bytes_nil, utf8Size_quote]
          at hstop
        omega
      have htext : (String.ofList ('"' :: code ++ ['"'])).toList ++ after =
          '"' :: code ++ '"' :: after := by
        simp
      rw [htext, tokensFrom_literal hcode, ih]
      rfl
    | @word word start stop hne hword =>
      simp only [String.toList_ofList] at hstop hafter ⊢
      subst hstop
      rw [tokensFrom_word hne hword (hafter (wordKind_ne_literal _)), ih]
      rfl

/-- **The scan of a line finds exactly the tokens that the line spells.** -/
theorem tokensFrom_eq_ok_iff {start : Nat} {cs : List Char} {tokens : List Token} :
    tokensFrom start cs = .ok tokens ↔ Spells start cs tokens :=
  ⟨spells_of_tokensFrom_eq_ok, Spells.tokensFrom_eq_ok⟩

theorem tokenize_eq_ok_iff {line : String} {tokens : List Token} :
    tokenize line = .ok tokens ↔ Spells 0 line.toList tokens :=
  tokensFrom_eq_ok_iff

/-- Every token is spelled as a token. -/
theorem Spells.spelled_of_mem {start : Nat} {cs : List Char} {tokens : List Token}
    (h : Spells start cs tokens) : ∀ token ∈ tokens, token.Spelled := by
  induction h with
  | done => simp
  | gap _ _ ih => exact ih
  | token hspelled _ _ _ ih => exact List.forall_mem_cons.2 ⟨hspelled, ih⟩

/-- Every token of a line has text, and every literal has its quotes. -/
theorem formed_of_mem_tokenize {line : String} {tokens : List Token}
    (h : tokenize line = .ok tokens) : ∀ token ∈ tokens, token.Formed :=
  fun token htoken => ((tokenize_eq_ok_iff.1 h).spelled_of_mem token htoken).formed

end ForeignWrap.Directive
