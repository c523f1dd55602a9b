import ForeignWrap.Proofs.Code.Comment
import ForeignWrap.Proofs.Syntax.Reading
import ForeignWrap.Syntax.Reader
import Mathlib.Data.List.TakeWhile

/-!
# What a text that is one name says

Comments and spacing are no part of code, so a text is one name in many ways: the name may stand
between any comments, direction marks and white space. Which name it is, is settled by the text.

## Main definitions

* `ForeignWrap.Code.IsWord`: the characters of a word, which may be raw.
* `ForeignWrap.Code.Skips`: what is left of a text when spacing and comments are taken off.
* `ForeignWrap.Code.SaysWord`: a text that is a word, but for spacing and comments.
* `ForeignWrap.Syntax.nameOf_eq_ok_iff`: these are the texts that are read as one name.
-/

namespace ForeignWrap

namespace Code

open Text

/-! ## Words -/

/-- The characters of a word that is not raw. -/
def IsPlainWord (cs : List Char) : Prop :=
  ∃ c rest, cs = c :: rest ∧ isIdentStart c = true ∧ ∀ d ∈ rest, isIdentContinue d = true

/-- The characters of a word, which may be raw. -/
inductive IsWord : List Char → Prop where
  | plain {cs : List Char} : IsPlainWord cs → IsWord cs
  | raw {cs : List Char} :
      IsPlainWord cs → String.ofList cs ∉ unrawWords → IsWord ('r' :: '#' :: cs)

/-- These characters do not make the beginning of a quoted literal of what stands before them. -/
def NoQuote (cs : List Char) : Prop :=
  ∀ c ∈ cs.head?, c ∉ ['#', '"', '\'']

/-- A word ends before these characters: they do not continue it, and make nothing else of it. -/
def EndsWord (cs : List Char) : Prop :=
  ∀ c ∈ cs.head?, isIdentContinue c = false ∧ c ∉ ['#', '"', '\'']

theorem endsWord_nil : EndsWord [] := by
  simp [EndsWord]

theorem isPlainWord_of_afterWord? {cs after : List Char} (h : afterWord? cs = some after) :
    ∃ word, cs = word ++ after ∧ IsPlainWord word := by
  cases cs with
  | nil => cases h
  | cons c cs =>
    rw [afterWord?] at h
    split at h
    · next hc =>
      obtain rfl := Option.some.inj h
      refine ⟨c :: cs.takeWhile isIdentContinue, ?_, c, _, rfl, hc, fun d => List.mem_takeWhile_imp⟩
      rw [List.cons_append, List.takeWhile_append_dropWhile]
    · cases h

theorem afterWord?_append {word after : List Char} (hword : IsPlainWord word)
    (hafter : EndsWord after) : afterWord? (word ++ after) = some after := by
  obtain ⟨c, rest, rfl, hc, hrest⟩ := hword
  have hdrop : after.dropWhile isIdentContinue = after := by
    cases after with
    | nil => rfl
    | cons d after =>
      have hd := (hafter d rfl).1
      rw [List.dropWhile_cons, hd]
      rfl
  rw [List.cons_append, afterWord?, if_pos hc, List.dropWhile_append_of_pos hrest, hdrop]

theorem isWord_of_afterName? {cs after : List Char} (h : afterName? cs = some after) :
    ∃ word, cs = word ++ after ∧ IsWord word := by
  unfold afterName? at h
  split at h
  · next rest =>
    obtain ⟨after', hafter, h⟩ := Option.bind_eq_some_iff.1 h
    split at h
    · cases h
    · next hraw =>
      obtain rfl := Option.some.inj h
      obtain ⟨word, rfl, hword⟩ := isPlainWord_of_afterWord? hafter
      rw [taken_append] at hraw
      exact ⟨'r' :: '#' :: word, rfl, .raw hword hraw⟩
  · obtain ⟨word, rfl, hword⟩ := isPlainWord_of_afterWord? h
    exact ⟨word, rfl, .plain hword⟩

theorem noQuote_append {word after : List Char} (hword : ∀ d ∈ word, isIdentContinue d = true)
    (hafter : EndsWord after) : NoQuote (word ++ after) := by
  cases word with
  | nil => exact fun c hc => (hafter c hc).2
  | cons d word =>
    have hsigns : (['#', '"', '\''] : List Char).all (fun c => !isIdentContinue c) = true := by
      decide
    intro c hc hsign
    obtain rfl : d = c := by simpa using hc
    have hd := List.all_eq_true.1 hsigns d hsign
    rw [hword d (by simp)] at hd
    cases hd

theorem afterName?_append {word after : List Char} (hword : IsWord word)
    (hafter : EndsWord after) : afterName? (word ++ after) = some after := by
  cases hword with
  | plain hword =>
    rw [afterName?]
    · exact afterWord?_append hword hafter
    · -- A plain word holds no hash, and none follows it.
      obtain ⟨c, word, rfl, -, hrest⟩ := hword
      intro rest heq
      obtain ⟨-, heq⟩ := List.cons.inj heq
      have hhash := noQuote_append hrest hafter '#' (by
        rw [show word ++ after = '#' :: rest from heq]
        rfl)
      exact hhash (by simp)
  | @raw cs hword hraw =>
    have hopen : afterName? ('r' :: '#' :: cs ++ after) =
        (afterWord? (cs ++ after)).bind fun rest =>
          if taken (cs ++ after) rest ∈ unrawWords then none else some rest := rfl
    rw [hopen, afterWord?_append hword hafter, Option.bind_some, taken_append, if_neg hraw]

/-- A word begins as a word that is not raw does. -/
theorem IsWord.exists_cons {word : List Char} (h : IsWord word) :
    ∃ c rest, word = c :: rest ∧ isIdentStart c = true := by
  cases h with
  | plain h =>
    obtain ⟨c, rest, rfl, hc, -⟩ := h
    exact ⟨c, rest, rfl, hc⟩
  | raw _ _ => exact ⟨'r', _, rfl, rfl⟩

/-! ## Characters that begin no word -/

/-- The code points of spacing. -/
def spacingCodes : List Nat :=
  [9, 10, 11, 12, 13, 0x20, 0x85, 0xA0, 0x1680, 0x2000, 0x2001, 0x2002, 0x2003, 0x2004, 0x2005,
    0x2006, 0x2007, 0x2008, 0x2009, 0x200A, 0x2028, 0x2029, 0x202F, 0x205F, 0x3000, 0x200E, 0x200F]

theorem toNat_mem_spacingCodes {c : Char} (h : isSpacing c = true) : c.toNat ∈ spacingCodes := by
  have hcodes : spacingCodes = List.range' 9 5 ++ ([0x20, 0x85, 0xA0, 0x1680] ++
      (List.range' 0x2000 11 ++
        [0x2028, 0x2029, 0x202F, 0x205F, 0x3000, 0x200E, 0x200F])) := rfl
  simp only [isSpacing, isBlank, Bool.or_eq_true, Bool.and_eq_true, decide_eq_true_eq,
    beq_iff_eq, or_assoc] at h
  rw [hcodes, List.mem_append, List.mem_append, List.mem_append, List.mem_range'_1,
    List.mem_range'_1]
  rcases h with h | h | h | h | h | h | h | h | h | h | h | h | h
  case inl => exact .inl (by omega)
  case inr.inr.inr.inr.inr.inl => exact .inr (.inr (.inl (by omega)))
  all_goals simp [h]

/-- No spacing lies in the ranges of the characters of a word. -/
theorem spacingCodes_apart : spacingCodes.all (fun n =>
    (startTable ++ continueTable).all fun range => n.blt range.1 || range.2.blt n) = true := by
  decide +kernel

theorem isIdentContinue_eq_false_of_isSpacing {c : Char} (h : isSpacing c = true) :
    isIdentContinue c = false := by
  have hcode := toNat_mem_spacingCodes h
  rw [isIdentContinue]
  split
  · have hascii : spacingCodes.all (fun n =>
        !((Char.ofNat n).isAlphanum || Char.ofNat n == '_')) = true := by decide
    simpa [Char.ofNat_toNat] using List.all_eq_true.1 hascii _ hcode
  · rw [← Bool.not_eq_true, Bool.or_eq_true, inRanges_iff, inRanges_iff]
    have hapart : ∀ range ∈ startTable ++ continueTable,
        ¬ (range.1 ≤ c.toNat ∧ c.toNat ≤ range.2) := by
      intro range hrange
      have hrange := List.all_eq_true.1 (List.all_eq_true.1 spacingCodes_apart _ hcode) range hrange
      simp only [Bool.or_eq_true, Nat.blt_eq] at hrange
      omega
    rintro (⟨range, hrange, hin⟩ | ⟨range, hrange, hin⟩)
    · exact hapart range (List.mem_append_left _ hrange) hin
    · exact hapart range (List.mem_append_right _ hrange) hin

/-- Spacing ends a word. -/
theorem endsWord_of_isSpacing {c : Char} (h : isSpacing c = true) (rest : List Char) :
    EndsWord (c :: rest) := by
  intro d hd
  obtain rfl : c = d := by simpa using hd
  refine ⟨isIdentContinue_eq_false_of_isSpacing h, fun hsign => ?_⟩
  have hsigns : (['#', '"', '\''] : List Char).all (isSpacing · = false) = true := by decide
  have hnot := List.all_eq_true.1 hsigns c hsign
  simp [h] at hnot

theorem isSpacing_of_isIdentStart {c : Char} (h : isIdentStart c = true) : isSpacing c = false := by
  by_contra hspacing
  have hends := endsWord_of_isSpacing (Bool.not_eq_false _ ▸ hspacing) [] c rfl
  rw [isIdentContinue_of_isIdentStart h] at hends
  cases hends.1

/-- What begins a word is no character that begins none. -/
theorem ne_of_isIdentStart {c d : Char} (hc : isIdentStart c = true)
    (hd : isIdentStart d = false) : c ≠ d := by
  rintro rfl
  rw [hc] at hd
  cases hd

/-! ## Spacing and comments -/

/-- `after` is left of a text when some spacing and comments are taken off its start. -/
inductive Skips : List Char → List Char → Prop where
  | refl (cs : List Char) : Skips cs cs
  | spacing {c : Char} {cs after : List Char} :
      isSpacing c = true → Skips cs after → Skips (c :: cs) after
  | comment {cs between after : List Char} :
      afterComment? cs = some between → Skips between after → Skips cs after

/-- A text that begins with neither spacing nor a comment. -/
def AtCode (cs : List Char) : Prop :=
  (∀ c ∈ cs.head?, isSpacing c = false) ∧ afterComment? cs = none

theorem atCode_nil : AtCode [] :=
  ⟨by simp, rfl⟩

/-- A comment begins with a slash. -/
theorem afterComment?_eq_none {c : Char} (hc : c ≠ '/') (cs : List Char) :
    afterComment? (c :: cs) = none := by
  unfold afterComment?
  split
  all_goals first
    | rfl
    | (rename_i heq; exact absurd (List.cons.inj heq).1 hc)

theorem atCode_of_isIdentStart {c : Char} (hc : isIdentStart c = true) (cs : List Char) :
    AtCode (c :: cs) := by
  refine ⟨?_, afterComment?_eq_none (ne_of_isIdentStart hc rfl) cs⟩
  intro d hd
  obtain rfl : c = d := by simpa using hd
  exact isSpacing_of_isIdentStart hc

theorem length_restOfLine_le (cs : List Char) : (restOfLine cs).2.length ≤ cs.length := by
  induction cs using restOfLine.induct with
  | case1 => exact Nat.le_refl _
  | case2 rest => exact Nat.le_refl _
  | case3 rest => exact Nat.le_succ _
  | case4 c rest hline hreturn line after h ih =>
    rw [restOfLine]
    · exact Nat.le_succ_of_le ih
    · exact hline
    · exact hreturn

theorem length_lt_of_afterBlock? {depth : Nat} {cs after : List Char}
    (h : afterBlock? depth cs = some after) : after.length < cs.length := by
  induction depth, cs using afterBlock?.induct with
  | case1 depth rest ih =>
    have := ih h
    simp only [List.length_cons]
    omega
  | case2 depth rest hdepth =>
    rw [afterBlock?, if_pos hdepth] at h
    cases h
    simp only [List.length_cons]
    omega
  | case3 depth rest hdepth ih =>
    rw [afterBlock?, if_neg hdepth] at h
    have := ih h
    simp only [List.length_cons]
    omega
  | case4 depth c rest hopen hclose ih =>
    rw [afterBlock?] at h
    · have := ih h
      simp only [List.length_cons]
      omega
    · exact hopen
    · exact hclose
  | case5 => cases h

theorem length_lt_of_afterComment? {cs after : List Char} (h : afterComment? cs = some after) :
    after.length < cs.length := by
  unfold afterComment? at h
  split at h
  case h_1 rest =>
    have := length_restOfLine_le rest
    cases h
    simp only [List.length_cons]
    omega
  case h_4 rest _ _ _ =>
    have := length_restOfLine_le rest
    cases h
    simp only [List.length_cons]
    omega
  case h_5 =>
    cases h
    simp only [List.length_cons]
    omega
  case h_6 | h_9 =>
    have := length_lt_of_afterBlock? h
    simp only [List.length_cons] at this ⊢
    omega
  all_goals cases h

/-- What is left after spacing and comments, when no more of them can be taken off. -/
theorem skips_skipSpace (fuel : Nat) (cs : List Char) : Skips cs (skipSpace fuel cs) := by
  fun_induction skipSpace fuel cs with
  | case1 => exact .refl _
  | case2 => exact .refl _
  | case3 fuel c rest hspacing ih => exact .spacing hspacing ih
  | case4 fuel c rest _ after hcomment ih => exact .comment hcomment ih
  | case5 => exact .refl _

theorem atCode_skipSpace {fuel : Nat} {cs : List Char} (hfuel : cs.length ≤ fuel) :
    AtCode (skipSpace fuel cs) := by
  fun_induction skipSpace fuel cs with
  | case1 cs =>
    obtain rfl := List.length_eq_zero_iff.1 (Nat.le_zero.1 hfuel)
    exact atCode_nil
  | case2 => exact atCode_nil
  | case3 fuel c rest hspacing ih => exact ih (Nat.le_of_succ_le_succ hfuel)
  | case4 fuel c rest _ after hcomment ih =>
    have := length_lt_of_afterComment? hcomment
    exact ih (by omega)
  | case5 fuel c rest hspacing hcomment =>
    exact ⟨by simpa using hspacing, hcomment⟩

/-- What is left is settled: there is one way to take spacing and comments off. -/
theorem Skips.unique {cs after after' : List Char} (h : Skips cs after) (hafter : AtCode after)
    (h' : Skips cs after') (hafter' : AtCode after') : after = after' := by
  induction h with
  | refl cs =>
    cases h' with
    | refl => rfl
    | spacing hspacing _ =>
      rw [hafter.1 _ rfl] at hspacing
      cases hspacing
    | comment hcomment _ =>
      rw [hafter.2] at hcomment
      cases hcomment
  | @spacing c cs after hspacing _ ih =>
    have hnone : afterComment? (c :: cs) = none := by
      refine afterComment?_eq_none ?_ cs
      rintro rfl
      cases hspacing
    cases h' with
    | refl =>
      rw [hafter'.1 _ rfl] at hspacing
      cases hspacing
    | spacing _ h' => exact ih hafter h'
    | comment hcomment _ =>
      rw [hnone] at hcomment
      cases hcomment
  | @comment cs between after hcomment _ ih =>
    cases h' with
    | refl =>
      rw [hafter'.2] at hcomment
      cases hcomment
    | spacing hspacing _ =>
      rw [afterComment?_eq_none] at hcomment
      · cases hcomment
      · rintro rfl
        cases hspacing
    | comment hcomment' h' =>
      obtain rfl := Option.some.inj (hcomment.symm.trans hcomment')
      exact ih hafter h'

theorem skipSpace_eq_of_skips {cs after : List Char} (h : Skips cs after) (hafter : AtCode after) :
    skipSpace cs.length cs = after :=
  (skips_skipSpace _ _).unique (atCode_skipSpace (Nat.le_refl _)) h hafter

/-- Spacing and comments end a word. -/
theorem endsWord_of_skips_nil {cs : List Char} (h : Skips cs []) : EndsWord cs := by
  cases h with
  | refl => exact endsWord_nil
  | spacing hspacing _ => exact endsWord_of_isSpacing hspacing _
  | comment hcomment _ =>
    cases cs with
    | nil => cases hcomment
    | cons c cs =>
      by_cases hc : c = '/'
      · rintro d hd
        obtain rfl : c = d := by simpa using hd
        subst hc
        exact ⟨rfl, by simp⟩
      · rw [afterComment?_eq_none hc] at hcomment
        cases hcomment

/-- A text says a word if it is that word but for spacing and comments, and for a byte order mark at
its very start. -/
def SaysWord (text word : String) : Prop :=
  IsWord word.toList ∧
    ∃ after, Skips (dropOrderMark text.toList) (word.toList ++ after) ∧ Skips after []

/-- A text says one word at most. -/
theorem SaysWord.unique {text word word' : String} (h : SaysWord text word)
    (h' : SaysWord text word') : word = word' := by
  obtain ⟨hword, after, hskips, hafter⟩ := h
  obtain ⟨hword', after', hskips', hafter'⟩ := h'
  have hcode : ∀ {word after : List Char}, IsWord word → AtCode (word ++ after) := by
    intro word after hword
    obtain ⟨c, rest, rfl, hc⟩ := hword.exists_cons
    exact atCode_of_isIdentStart hc _
  have hsame := hskips.unique (hcode hword) hskips' (hcode hword')
  have hends := afterName?_append hword (endsWord_of_skips_nil hafter)
  rw [hsame, afterName?_append hword' (endsWord_of_skips_nil hafter')] at hends
  rw [Option.some.inj hends, List.append_cancel_right_eq] at hsame
  exact String.toList_inj.1 hsame

/-- A word says itself. -/
theorem saysWord_self {word : String} (h : IsWord word.toList) : SaysWord word word := by
  refine ⟨h, [], ?_, .refl _⟩
  obtain ⟨c, rest, hcons, hc⟩ := h.exists_cons
  have hmark : c.toNat ≠ 0xFEFF := by
    intro heq
    have : c = Char.ofNat 0xFEFF := by rw [← heq, Char.ofNat_toNat]
    exact ne_of_isIdentStart hc (by decide +kernel) this
  rw [List.append_nil, hcons, dropOrderMark, if_neg hmark]
  exact .refl _

/-! ## Words are no literals -/

theorem afterRaw?_eq_none {cs : List Char} (form : QuoteForm) (h : NoQuote cs) :
    form.afterRaw? cs = none := by
  cases cs with
  | nil => rfl
  | cons c cs =>
    have hc := h c rfl
    have hdrop : (c :: cs).dropWhile (· = '#') = c :: cs := by
      rw [List.dropWhile_cons, if_neg]
      rintro heq
      simp_all
    simp only [QuoteForm.afterRaw?, hdrop]
    split
    · next heq =>
      obtain ⟨rfl, -⟩ := List.cons.inj heq
      simp at hc
    · rfl

theorem isDigit_of_isIdentStart {c : Char} (hc : isIdentStart c = true) : c.isDigit = false := by
  have hall : (List.range' 48 10).all (fun n => !isIdentStart (Char.ofNat n)) = true := by
    decide
  by_contra hdigit
  have hmem : c.toNat ∈ List.range' 48 10 := by
    rw [Bool.not_eq_false, Char.isDigit, Bool.and_eq_true, decide_eq_true_eq,
      decide_eq_true_eq, ge_iff_le, UInt32.le_iff_toNat_le, UInt32.le_iff_toNat_le] at hdigit
    rw [List.mem_range'_1]
    exact ⟨hdigit.1, Nat.lt_succ_of_le hdigit.2⟩
  have hstart := List.all_eq_true.1 hall _ hmem
  rw [Char.ofNat_toNat, hc] at hstart
  cases hstart

/-- A digit of another base is no decimal digit. -/
theorem le_of_hexValue?_eq_some {c : Char} {digit : Nat} (hc : c.isDigit = false)
    (h : hexValue? c = some digit) : 10 ≤ digit := by
  unfold hexValue? at h
  split at h
  · next hdecimal =>
    have hdigit : c.isDigit = true := by
      rw [Char.isDigit, Bool.and_eq_true, decide_eq_true_eq, decide_eq_true_eq]
      exact hdecimal
    rw [hc] at hdigit
    cases hdigit
  · split at h
    · cases h
      exact Nat.le_add_left _ _
    · split at h
      · cases h
        exact Nat.le_add_left _ _
      · cases h

theorem afterInteger?_eq_none {c : Char} (hc : isIdentStart c = true) (cs : List Char) :
    afterInteger? (c :: cs) = none := by
  have hdigit := isDigit_of_isIdentStart hc
  have hzero : c ≠ '0' := ne_of_isIdentStart hc rfl
  have hdigits : afterDigits? 10 true (c :: cs) = none := by
    rw [afterDigits?, if_neg (by simp [hdigit])]
    split
    · rfl
    · cases hvalue : hexValue? c with
      | none => rfl
      | some digit =>
        have := le_of_hexValue?_eq_some hdigit hvalue
        exact if_neg (by omega)
  unfold afterInteger?
  split
  case h_4 => rw [hdigits]; rfl
  all_goals
    next heq => exact absurd (List.cons.inj heq).1 hzero

theorem afterFloat?_eq_none {c : Char} (hc : isIdentStart c = true) (cs : List Char) :
    afterFloat? (c :: cs) = none := by
  have hdigits : afterFloatDigits? (c :: cs) = none := by
    rw [afterFloatDigits?, if_pos (by simp [isDigit_of_isIdentStart hc])]
  rw [afterFloat?, hdigits]
  rfl

/-- What begins as a word does is no literal, unless it goes on with a quote. -/
theorem afterLiteral?_eq_none {c : Char} {cs : List Char} (hc : isIdentStart c = true)
    (hcs : NoQuote cs) (hrest : ∀ rest, cs = 'r' :: rest → NoQuote rest) :
    afterLiteral? (c :: cs) = none := by
  have hquote : ∀ d rest, (c :: cs) ≠ '"' :: rest ∧ (c :: cs) ≠ '\'' :: rest ∧
      (c :: cs) ≠ d :: '"' :: rest ∧ (c :: cs) ≠ d :: '\'' :: rest := by
    intro d rest
    refine ⟨?_, ?_, ?_, ?_⟩
    · rintro ⟨⟩
      exact absurd hc (by decide)
    · rintro ⟨⟩
      exact absurd hc (by decide)
    · rintro ⟨⟩
      exact hcs _ rfl (by simp)
    · rintro ⟨⟩
      exact hcs _ rfl (by simp)
  have htext : afterTextString? (c :: cs) = none := by
    unfold afterTextString?
    split
    · next heq => exact absurd heq (hquote 'r' _).1
    · next heq =>
      obtain ⟨-, rfl⟩ := List.cons.inj heq
      exact afterRaw?_eq_none _ hcs
    · rfl
  have hbytes : afterByteString? (c :: cs) = none := by
    unfold afterByteString?
    split
    · next heq => exact absurd heq (hquote 'b' _).2.2.1
    · next heq =>
      obtain ⟨-, rfl⟩ := List.cons.inj heq
      exact afterRaw?_eq_none _ (hrest _ rfl)
    · rfl
  have hnul : afterNulString? (c :: cs) = none := by
    unfold afterNulString?
    split
    · next heq => exact absurd heq (hquote 'c' _).2.2.1
    · next heq =>
      obtain ⟨-, rfl⟩ := List.cons.inj heq
      exact afterRaw?_eq_none _ (hrest _ rfl)
    · rfl
  have hbyte : afterByte? (c :: cs) = none := by
    unfold afterByte?
    split
    · next heq => exact absurd heq (hquote 'b' _).2.2.2
    · rfl
  have hcharacter : afterCharacter? (c :: cs) = none := by
    unfold afterCharacter?
    split
    · next heq => exact absurd heq (hquote 'b' _).2.1
    · rfl
  simp only [afterLiteral?, htext, hbytes, hnul, hbyte, hcharacter, afterFloat?_eq_none hc,
    afterInteger?_eq_none hc]
  rfl

/-- The beginnings of literals have a sign in the second place, or in the third after an `r`. -/
theorem exists_sign_of_mem_literalPrefixes {start : String} (h : start ∈ literalPrefixes) :
    ∃ c sign more, sign ∈ ['#', '"', '\''] ∧
      (start.toList = c :: sign :: more ∨ start.toList = c :: 'r' :: sign :: more) := by
  simp only [literalPrefixes, List.mem_cons, List.not_mem_nil, or_false] at h
  obtain rfl | rfl | rfl | rfl | rfl | rfl | rfl | rfl | rfl | rfl := h
  case inr.inr.inr.inr.inr.inl | inr.inr.inr.inr.inr.inr.inl | inr.inr.inr.inr.inr.inr.inr.inr.inl |
      inr.inr.inr.inr.inr.inr.inr.inr.inr => exact ⟨_, _, _, by decide, .inr rfl⟩
  all_goals exact ⟨_, _, _, by decide, .inl rfl⟩

theorem any_literalPrefixes_eq_false {c : Char} {cs : List Char} (hcs : NoQuote cs)
    (hrest : ∀ rest, cs = 'r' :: rest → NoQuote rest) :
    (literalPrefixes.any fun start => (afterPrefix? start.toList (c :: cs)).isSome) = false := by
  rw [List.any_eq_false]
  intro start hstart hprefix
  obtain ⟨after, hafter⟩ := Option.isSome_iff_exists.1 hprefix
  have heq := eq_append_of_afterPrefix? hafter
  obtain ⟨d, sign, more, hsign, htext | htext⟩ := exists_sign_of_mem_literalPrefixes hstart
  · rw [htext] at heq
    obtain ⟨-, rfl⟩ := List.cons.inj heq
    exact hcs sign rfl hsign
  · rw [htext] at heq
    obtain ⟨-, rfl⟩ := List.cons.inj heq
    exact hrest _ rfl sign rfl hsign

/-- What a word is, for telling it from literals: its first character, and no quote after that. -/
theorem IsPlainWord.noQuote {word after : List Char} (hword : IsPlainWord word)
    (hafter : EndsWord after) :
    ∃ c cs, word ++ after = c :: cs ∧ isIdentStart c = true ∧ NoQuote cs ∧
      ∀ rest, cs = 'r' :: rest → NoQuote rest := by
  obtain ⟨c, word, rfl, hc, hrest⟩ := hword
  refine ⟨c, word ++ after, rfl, hc, noQuote_append hrest hafter, ?_⟩
  intro rest heq
  cases word with
  | nil =>
    obtain rfl : after = 'r' :: rest := heq
    exact absurd (hafter 'r' rfl).1 (by decide)
  | cons d word =>
    obtain ⟨-, rfl⟩ := List.cons.inj heq
    exact noQuote_append (fun e he => hrest e (by simp [he])) hafter

/-- A word is no literal. -/
theorem IsWord.afterLiteral?_eq_none {word after : List Char} (hword : IsWord word)
    (hafter : EndsWord after) : afterLiteral? (word ++ after) = none := by
  cases hword with
  | plain hword =>
    obtain ⟨c, cs, heq, hc, hcs, hrest⟩ := hword.noQuote hafter
    rw [heq]
    exact Code.afterLiteral?_eq_none hc hcs hrest
  | @raw cs hword _ =>
    obtain ⟨c, cs, heq, hc, hcs, hrest⟩ := hword.noQuote hafter
    have hhash : c ≠ '#' := ne_of_isIdentStart hc rfl
    have hquote : c ≠ '"' := ne_of_isIdentStart hc rfl
    have hraw : QuoteForm.text.afterRaw? ('#' :: c :: cs) = none := by
      simp [QuoteForm.afterRaw?, hhash, hquote]
    have hstart : isIdentStart 'r' = true := rfl
    rw [List.cons_append, List.cons_append, heq]
    simp only [afterLiteral?, afterTextString?, hraw, afterFloat?_eq_none hstart,
      afterInteger?_eq_none hstart]
    rfl

/-- No prefix of a literal is a word. -/
theorem IsWord.any_literalPrefixes {word after : List Char} (hword : IsWord word)
    (hafter : EndsWord after) :
    (literalPrefixes.any fun start => (afterPrefix? start.toList (word ++ after)).isSome) =
      false := by
  cases hword with
  | plain hword =>
    obtain ⟨c, cs, heq, hc, hcs, hrest⟩ := hword.noQuote hafter
    rw [heq]
    exact any_literalPrefixes_eq_false hcs hrest
  | @raw cs hword _ =>
    obtain ⟨c, cs, heq, hc, hcs, hrest⟩ := hword.noQuote hafter
    have hhash : c ≠ '#' := ne_of_isIdentStart hc rfl
    have hquote : c ≠ '"' := ne_of_isIdentStart hc rfl
    rw [List.cons_append, List.cons_append, heq]
    simp [literalPrefixes, afterPrefix?, hhash.symm, hquote.symm]

/-! ## Texts that are one word -/

theorem sign?_eq_none {c : Char} (hc : isIdentStart c = true) (cs : List Char) :
    sign? (c :: cs) = none := by
  have hsigns : "~!@#$%^&*-=+|;:,<.>/?'".toList.all (fun d => !isIdentStart d) = true := by
    decide
  have hsign : isSignChar c = false := by
    by_contra hsign
    have hmem : c ∈ "~!@#$%^&*-=+|;:,<.>/?'".toList :=
      of_decide_eq_true (Bool.not_eq_false _ ▸ hsign)
    have hstart := List.all_eq_true.1 hsigns c hmem
    rw [hc] at hstart
    cases hstart
  have hat : atSign (c :: cs) = false := by
    unfold atSign
    split
    · rfl
    · rfl
    · next heq =>
      obtain ⟨rfl, -⟩ := List.cons.inj heq
      exact hsign
    · rfl
  rw [sign?, hat]
  rfl

theorem leaf?_word {word after : List Char} (hword : IsWord word) (hafter : EndsWord after) :
    leaf? (word ++ after) = some (.word (String.ofList word), after) := by
  have hread : word? (word ++ after) = some (.word (String.ofList word), after) := by
    rw [word?, hword.any_literalPrefixes hafter, afterName?_append hword hafter]
    simp [taken_append]
  rw [leaf?, hword.afterLiteral?_eq_none hafter, hread]
  obtain ⟨c, rest, rfl, hc⟩ := hword.exists_cons
  rw [List.cons_append, sign?_eq_none hc]
  rfl

theorem docComment?_eq_none {c : Char} (hc : c ≠ '/') (cs : List Char) :
    docComment? (c :: cs) = none := by
  have hcontent : docContent? (c :: cs) = none := by
    unfold docContent?
    split
    all_goals first
      | rfl
      | (rename_i heq; exact absurd (List.cons.inj heq).1 hc)
  rw [docComment?, hcontent]
  rfl

theorem opens?_eq_none {c : Char} (hc : isIdentStart c = true) (cs : List Char) :
    opens? (c :: cs) = none := by
  unfold opens?
  split
  case h_4 => rfl
  all_goals
    next heq =>
      obtain ⟨rfl, -⟩ := List.cons.inj heq
      exact absurd hc (by decide)

theorem closes?_eq_none {c : Char} (hc : isIdentStart c = true) : closes? c = none := by
  unfold closes?
  split
  case h_4 => rfl
  all_goals exact absurd hc (by decide)

theorem exists_sign_of_docComment? {cs after : List Char} {doc : List Token}
    (h : docComment? cs = some (doc, after)) : ∃ joint more, doc = .sign '#' joint :: more := by
  obtain ⟨⟨content, inner, rest⟩, -, h⟩ := Option.bind_eq_some_iff.1 h
  have hdoc : docAttribute inner (String.ofList content) = doc := by
    by_cases hpaired : returnsPaired content = true
    · simpa [hpaired] using congrArg (·.map Prod.fst) h
    · simp [hpaired] at h
  exact ⟨false, _, hdoc.symm⟩

theorem exists_sign_of_sign? {cs after : List Char} {token : Token}
    (h : sign? cs = some (token, after)) : ∃ c joint, token = .sign c joint := by
  cases cs with
  | nil => cases h
  | cons c rest =>
    rw [sign?] at h
    split at h
    · cases h
    · split at h
      · split at h
        · cases h
        · dsimp only at h
          split at h
          · cases h
          · cases h
            exact ⟨_, _, rfl⟩
      · cases h
        exact ⟨_, _, rfl⟩

theorem isWord_of_word? {cs after : List Char} {word : String}
    (h : word? cs = some (.word word, after)) : cs = word.toList ++ after ∧ IsWord word.toList := by
  unfold word? at h
  split at h
  · cases h
  · obtain ⟨after', hafter, h⟩ := Option.bind_eq_some_iff.1 h
    obtain ⟨name, rfl, hname⟩ := isWord_of_afterName? hafter
    cases h
    rw [taken_append, String.toList_ofList]
    exact ⟨rfl, hname⟩

/-- A word that is read is a word. -/
theorem isWord_of_leaf? {cs after : List Char} {word : String}
    (h : leaf? cs = some (.word word, after)) : cs = word.toList ++ after ∧ IsWord word.toList := by
  unfold leaf? at h
  split at h
  · cases h
  · simp only [Option.orElse_eq_orElse, Option.orElse_eq_or, Option.or_eq_some_iff,
      Option.map_eq_some_iff, Prod.mk.injEq, reduceCtorEq, false_and, and_false,
      exists_false, or_false] at h
    obtain h | ⟨-, h⟩ := h
    · obtain ⟨c, joint, ⟨⟩⟩ := exists_sign_of_sign? h
    · exact isWord_of_word? h

/-- What one step reads: documentation, the end, a group, the end of a group, or a leaf that the
rest of the tokens comes after. -/
theorem tokens?_cases {fuel : Nat} {inside : Option Delimiter} {cs last : List Char}
    {tokens : List Token} (h : tokens? (fuel + 1) inside cs = some (tokens, last)) :
    ∃ rest, Skips cs rest ∧
      ((∃ joint more, tokens = .sign '#' joint :: more) ∨
        (rest = [] ∧ tokens = []) ∨
        (∃ delimiter content more, tokens = .group delimiter content :: more) ∨
        (inside ≠ none ∧ tokens = []) ∨
        ∃ token after more, leaf? rest = some (token, after) ∧ tokens = token :: more ∧
          tokens? fuel inside after = some (more, last)) := by
  have hskips := skips_skipSpace cs.length cs
  rw [tokens?] at h
  refine ⟨_, hskips, ?_⟩
  generalize skipSpace cs.length cs = rest at h
  cases hdoc : docComment? rest with
  | some found =>
    obtain ⟨doc, rest'⟩ := found
    obtain ⟨joint, more, rfl⟩ := exists_sign_of_docComment? hdoc
    simp only [hdoc] at h
    obtain ⟨⟨_, _⟩, -, h⟩ := Option.bind_eq_some_iff.1 h
    cases h
    exact .inl ⟨joint, _, rfl⟩
  | none =>
    simp only [hdoc] at h
    cases rest with
    | nil =>
      cases inside with
      | none =>
        cases h
        exact .inr (.inl ⟨rfl, rfl⟩)
      | some delimiter => cases h
    | cons c rest =>
      cases hopens : opens? (c :: rest) with
      | some delimiter =>
        simp only [hopens] at h
        obtain ⟨⟨_, _⟩, -, h⟩ := Option.bind_eq_some_iff.1 h
        obtain ⟨⟨_, _⟩, -, h⟩ := Option.bind_eq_some_iff.1 h
        cases h
        exact .inr (.inr (.inl ⟨_, _, _, rfl⟩))
      | none =>
        simp only [hopens] at h
        cases hcloses : closes? c with
        | some delimiter =>
          simp only [hcloses] at h
          by_cases hinside : inside = some delimiter
          · rw [if_pos hinside] at h
            cases h
            exact .inr (.inr (.inr (.inl ⟨by simp [hinside], rfl⟩)))
          · rw [if_neg hinside] at h
            cases h
        | none =>
          simp only [hcloses] at h
          obtain ⟨⟨token, after⟩, hleaf, h⟩ := Option.bind_eq_some_iff.1 h
          obtain ⟨⟨more, _⟩, hmore, h⟩ := Option.bind_eq_some_iff.1 h
          cases h
          exact .inr (.inr (.inr (.inr ⟨token, after, more, hleaf, rfl, hmore⟩)))

/-- A text without tokens is all spacing and comments. -/
theorem skips_of_tokens?_eq_nil {fuel : Nat} {cs last : List Char}
    (h : tokens? fuel none cs = some ([], last)) : Skips cs [] := by
  cases fuel with
  | zero => cases h
  | succ fuel =>
    obtain ⟨rest, hskips, ⟨_, _, ⟨⟩⟩ | ⟨rfl, -⟩ | ⟨_, _, _, ⟨⟩⟩ | ⟨hinside, -⟩ |
      ⟨_, _, _, -, ⟨⟩, -⟩⟩ := tokens?_cases h
    · exact hskips
    · exact absurd rfl hinside

theorem tokens?_of_skips {fuel : Nat} {cs : List Char} (h : Skips cs []) :
    tokens? (fuel + 1) none cs = some ([], []) := by
  rw [tokens?, skipSpace_eq_of_skips h atCode_nil]
  rfl

theorem tokens?_of_skips_word {fuel : Nat} {cs word after : List Char} (hword : IsWord word)
    (hskips : Skips cs (word ++ after)) (hafter : Skips after []) :
    tokens? (fuel + 2) none cs = some ([.word (String.ofList word)], []) := by
  have hleaf := leaf?_word hword (endsWord_of_skips_nil hafter)
  obtain ⟨c, rest, rfl, hc⟩ := hword.exists_cons
  rw [List.cons_append] at hskips hleaf
  have hslash : c ≠ '/' := ne_of_isIdentStart hc rfl
  rw [tokens?, skipSpace_eq_of_skips hskips (atCode_of_isIdentStart hc _)]
  simp only [docComment?_eq_none hslash, opens?_eq_none hc, closes?_eq_none hc, hleaf,
    tokens?_of_skips hafter, Option.bind_eq_bind, Option.bind_some, Option.pure_def]

/-- The texts of which one word is read. -/
theorem lex_eq_word_iff {text word : String} :
    lex text = some [.word word] ↔ SaysWord text word := by
  constructor
  · intro h
    obtain ⟨⟨tokens, last⟩, h, htokens⟩ := Option.map_eq_some_iff.1 h
    obtain rfl : tokens = [.word word] := htokens
    obtain ⟨rest, hskips, ⟨_, _, ⟨⟩⟩ | ⟨-, ⟨⟩⟩ | ⟨_, _, _, ⟨⟩⟩ | ⟨-, ⟨⟩⟩ |
      ⟨_, after, _, hleaf, ⟨⟩, hmore⟩⟩ := tokens?_cases h
    obtain ⟨rfl, hword⟩ := isWord_of_leaf? hleaf
    exact ⟨hword, after, hskips, skips_of_tokens?_eq_nil hmore⟩
  · rintro ⟨hword, after, hskips, hafter⟩
    have hne : dropOrderMark text.toList ≠ [] := by
      intro hnil
      rw [hnil] at hskips
      obtain ⟨c, rest, heq, hc⟩ := hword.exists_cons
      rw [heq, List.cons_append] at hskips
      cases hskips.unique (atCode_of_isIdentStart hc _) (.refl []) atCode_nil
    obtain ⟨n, hn⟩ := Nat.exists_eq_succ_of_ne_zero (List.length_pos_iff.2 hne).ne'
    have htokens : tokens? (n + 2) none _ = _ := tokens?_of_skips_word hword hskips hafter
    rw [String.ofList_toList] at htokens
    rw [lex, hn]
    exact congrArg (Option.map Prod.fst) htokens

end Code

namespace Syntax

open Code (Token)

/-- One name is read of the tokens exactly if they are it. -/
theorem run_name_eq_ok_iff {tokens taken : List Token} {name : String} :
    Parser.run Parser.name tokens = .ok (name, taken) ↔
      tokens = [.word name] ∧ isName name = true ∧ taken = [.word name] := by
  have hread : ∀ word rest, isName word = true →
      Parser.run Parser.name (.word word :: rest) =
        if rest.isEmpty then .ok (word, [.word word]) else .error (.leftover none) := by
    intro word rest hword
    have hname : Parser.name { rest := .word word :: rest } =
        (if isName word then do
          Parser.advance [.word word] rest
          return word
        else throw (.keywordAsName word) : Parser String) { rest := .word word :: rest } := rfl
    rw [Parser.run, hname, if_pos hword]
    rfl
  constructor
  · intro h
    cases tokens with
    | nil => cases h
    | cons t rest =>
      cases t with
      | word word =>
        by_cases hword : isName word = true
        · rw [hread word rest hword] at h
          split at h
          · next hrest =>
            cases h
            rw [List.isEmpty_iff.1 hrest]
            exact ⟨rfl, hword, rfl⟩
          · cases h
        · obtain ⟨_, hname, -⟩ := bind_eq_ok_iff.1 h
          have hfails : Parser.Fails Parser.name (.word word :: rest) :=
            Parser.fails_name (by simpa [atName] using hword)
          obtain ⟨e, he⟩ := hfails [] none
          rw [he] at hname
          cases hname
      | _ => cases h
  · rintro ⟨rfl, hname, rfl⟩
    exact hread name [] hname

/-- **A text is read as a name exactly if it says that name**, and the name is no keyword. -/
theorem nameOf_eq_ok_iff {text name : String} :
    nameOf text = .ok name ↔ Code.SaysWord text name ∧ isName name = true := by
  have htokens : ∀ tokens, tokensOf text = .ok tokens ↔ Code.lex text = some tokens := by
    intro tokens
    unfold tokensOf
    split
    · next lexed hlex => simp [hlex]
    · next hlex => simp [hlex]
  constructor
  · intro h
    obtain ⟨tokens, hlex, h⟩ := bind_eq_ok_iff.1 h
    obtain ⟨⟨name', taken⟩, hrun, h⟩ := bind_eq_ok_iff.1 h
    cases h
    obtain ⟨rfl, hname, -⟩ := run_name_eq_ok_iff.1 hrun
    exact ⟨Code.lex_eq_word_iff.1 ((htokens _).1 hlex), hname⟩
  · rintro ⟨hword, hname⟩
    refine bind_eq_ok_iff.2 ⟨_, (htokens _).2 (Code.lex_eq_word_iff.2 hword), ?_⟩
    exact bind_eq_ok_iff.2 ⟨(name, _), run_name_eq_ok_iff.2 ⟨rfl, hname, rfl⟩, rfl⟩

end Syntax

end ForeignWrap
