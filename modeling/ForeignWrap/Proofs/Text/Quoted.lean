import ForeignWrap.Code.Literal
import ForeignWrap.Syntax.Number
import ForeignWrap.Text.Quoted
import Mathlib.Tactic.IntervalCases

/-!
# String literals

Every text has a string literal. The literal ends where the text does, and stands for the text.

## Main definitions

* `ForeignWrap.Code.StandsFor`: what some code between quotes stands for.
* `ForeignWrap.Code.afterTextString?_stringLiteral`: where the literal of a text ends.
* `ForeignWrap.Syntax.textValue?_stringLiteral`: what the literal of a text stands for.
-/

namespace ForeignWrap.Code

open Text

/-! ## Code points -/

theorem hexValue?_digitChar {d : Nat} (h : d < 16) : hexValue? d.digitChar = some d := by
  interval_cases d <;> rfl

theorem digitChar_ne_marks {d : Nat} (h : d < 16) :
    d.digitChar ≠ '_' ∧ d.digitChar ≠ '\x7d' := by
  interval_cases d <;> decide

theorem unicodeDigits?_digitChar {value count d : Nat} (rest : List Char) (hd : d < 16)
    (hcount : count < 6) :
    unicodeDigits? value count (d.digitChar :: rest) =
      unicodeDigits? (value * 16 + d) (count + 1) rest := by
  obtain ⟨hline, hbrace⟩ := digitChar_ne_marks hd
  simp [unicodeDigits?, hline, hbrace, hexValue?_digitChar hd, hcount.ne]

/-- The digits of a number add it to what was read before them. -/
theorem unicodeDigits?_hexDigits {value count : Nat} (n : Nat) (rest : List Char)
    (hcount : count + (hexDigits n).length ≤ 6) :
    unicodeDigits? value count (hexDigits n ++ rest) =
      unicodeDigits? (value * 16 ^ (hexDigits n).length + n) (count + (hexDigits n).length)
        rest := by
  induction n using Nat.strong_induction_on generalizing rest with
  | _ n ih =>
    by_cases hn : n < 16
    · have hdigits : hexDigits n = [n.digitChar] := Nat.toDigits_of_lt_base hn
      rw [hdigits, List.length_singleton] at hcount ⊢
      rw [List.singleton_append, unicodeDigits?_digitChar rest hn (by omega), pow_one]
    · have hdigits : hexDigits n = hexDigits (n / 16) ++ [(n % 16).digitChar] := by
        rw [hexDigits, Nat.toDigits_eq_if (by decide), if_neg hn]
        rfl
      rw [hdigits, List.length_append, List.length_singleton] at hcount ⊢
      rw [List.append_assoc, ih (n / 16) (by omega) _ (by omega), List.singleton_append,
        unicodeDigits?_digitChar rest (Nat.mod_lt _ (by decide)) (by omega), pow_succ]
      have hsplit : (value * 16 ^ (hexDigits (n / 16)).length + n / 16) * 16 + n % 16 =
          value * (16 ^ (hexDigits (n / 16)).length * 16) + n := by
        rw [Nat.add_mul, Nat.mul_assoc]
        omega
      rw [hsplit, Nat.add_assoc]

theorem isScalar_toNat (c : Char) : isScalar c.toNat = true := by
  have hvalid : c.toNat < 0xD800 ∨ 0xDFFF < c.toNat ∧ c.toNat < 0x110000 := c.valid
  simp only [isScalar, Bool.or_eq_true, Bool.and_eq_true, decide_eq_true_eq]
  omega

theorem length_hexDigits_le (c : Char) : (hexDigits c.toNat).length ≤ 6 := by
  have hvalid : c.toNat < 0xD800 ∨ 0xDFFF < c.toNat ∧ c.toNat < 0x110000 := c.valid
  rw [hexDigits, Nat.length_toDigits_le_iff (by decide) (by decide)]
  omega

/-- The code point of a character is read as its number. -/
theorem unicodeEscape?_toNat (c : Char) (rest : List Char) :
    unicodeEscape? ('\x7b' :: (hexDigits c.toNat ++ '\x7d' :: rest)) = some (c.toNat, rest) := by
  have hlength : 0 < (hexDigits c.toNat).length := by
    rw [List.length_pos_iff]
    exact Nat.toDigits_ne_nil
  rw [unicodeEscape?, unicodeDigits?_hexDigits _ _ (by simpa using length_hexDigits_le c)]
  simp [unicodeDigits?, isScalar_toNat, hlength]

/-! ## Characters -/

/-- Between the quotes of a string, `code` stands for the character `c`. -/
structure StandsFor (c : Char) (code : List Char) : Prop where
  ne_nil : code ≠ []
  skipped : ∀ fuel rest, QuoteForm.text.afterQuoted? (fuel + 1) (code ++ rest) =
    QuoteForm.text.afterQuoted? fuel rest
  read : ∀ fuel rest, Syntax.unescape? (fuel + 1) (code ++ rest) =
    (Syntax.unescape? fuel rest).map (c :: ·)

/-- A character that is not special stands for itself. -/
theorem standsFor_self {c : Char} (hquote : c ≠ '"') (hreturn : c ≠ '\r') (hbackslash : c ≠ '\\') :
    StandsFor c [c] where
  ne_nil := by simp
  skipped fuel rest := by
    rw [List.singleton_append, QuoteForm.afterQuoted?]
    · simp [QuoteForm.text]
    all_goals simp [hquote, hreturn, hbackslash]
  read fuel rest := by
    rw [List.singleton_append, Syntax.unescape?]
    all_goals simp [hquote, hreturn, hbackslash]

theorem standsFor_codePoint (c : Char) :
    StandsFor c (['\\', 'u', '\x7b'] ++ hexDigits c.toNat ++ ['\x7d']) where
  ne_nil := by simp
  skipped fuel rest := by
    simp [QuoteForm.afterQuoted?, QuoteForm.afterEscape?, unicodeEscape?_toNat, QuoteForm.text]
  read fuel rest := by
    simp [Syntax.unescape?, unicodeEscape?_toNat, Option.map_eq_bind]

theorem standsFor_escape (c : Char) : StandsFor c (escape c) := by
  unfold escape
  split
  case h_7 _ _ _ hreturn _ hbackslash hquote =>
    split
    · exact standsFor_codePoint _
    · exact standsFor_self hquote hreturn hbackslash
  all_goals exact ⟨by simp, fun _ _ => rfl, fun _ _ => rfl⟩

theorem standsFor_nul : StandsFor '\x00' ['\\', 'x', '0', '0'] where
  ne_nil := by simp
  skipped _ _ := rfl
  read fuel rest := by
    have hpair : hexPair? ('0' :: '0' :: rest) = some (0, rest) := rfl
    simp [Syntax.unescape?, hpair, Option.map_eq_bind]

/-! ## Texts -/

/-- A text is escaped character by character. -/
theorem exists_escapeLiteral_cons (c : Char) (cs : List Char) :
    ∃ code, StandsFor c code ∧ escapeLiteral (c :: cs) = code ++ escapeLiteral cs := by
  rw [escapeLiteral]
  split
  case isTrue h =>
    obtain rfl : c = '\x00' := by
      rw [Bool.and_eq_true] at h
      exact of_decide_eq_true h.1
    exact ⟨_, standsFor_nul, rfl⟩
  case isFalse => exact ⟨_, standsFor_escape c, rfl⟩

theorem length_le_length_escapeLiteral (cs : List Char) :
    cs.length ≤ (escapeLiteral cs).length := by
  induction cs with
  | nil => simp
  | cons c cs ih =>
    obtain ⟨code, hcode, heq⟩ := exists_escapeLiteral_cons c cs
    have hpos := List.length_pos_iff.2 hcode.ne_nil
    rw [heq, List.length_append, List.length_cons]
    omega

theorem afterQuoted?_escapeLiteral {fuel : Nat} (cs rest : List Char) (hfuel : cs.length < fuel) :
    QuoteForm.text.afterQuoted? fuel (escapeLiteral cs ++ '"' :: rest) =
      some (afterSuffix rest) := by
  induction cs generalizing fuel with
  | nil =>
    obtain ⟨fuel, rfl⟩ := Nat.exists_eq_add_one_of_ne_zero (Nat.ne_zero_of_lt hfuel)
    rfl
  | cons c cs ih =>
    obtain ⟨code, hcode, heq⟩ := exists_escapeLiteral_cons c cs
    obtain ⟨fuel, rfl⟩ := Nat.exists_eq_add_one_of_ne_zero (Nat.ne_zero_of_lt hfuel)
    rw [heq, List.append_assoc, hcode.skipped]
    exact ih (by simpa using hfuel)

theorem unescape?_escapeLiteral {fuel : Nat} (cs rest : List Char) (hfuel : cs.length < fuel) :
    Syntax.unescape? fuel (escapeLiteral cs ++ '"' :: rest) = some cs := by
  induction cs generalizing fuel with
  | nil =>
    obtain ⟨fuel, rfl⟩ := Nat.exists_eq_add_one_of_ne_zero (Nat.ne_zero_of_lt hfuel)
    rfl
  | cons c cs ih =>
    obtain ⟨code, hcode, heq⟩ := exists_escapeLiteral_cons c cs
    obtain ⟨fuel, rfl⟩ := Nat.exists_eq_add_one_of_ne_zero (Nat.ne_zero_of_lt hfuel)
    rw [heq, List.append_assoc, hcode.read, ih (by simpa using hfuel), Option.map_some]

theorem toList_stringLiteral (s : String) :
    (stringLiteral s).toList = '"' :: (escapeLiteral s.toList ++ ['"']) := by
  simp [stringLiteral]

/-- The literal of a text ends with its closing quote, and with the word that touches it. -/
theorem afterTextString?_stringLiteral (s : String) (rest : List Char) :
    afterTextString? ((stringLiteral s).toList ++ rest) = some (afterSuffix rest) := by
  have hlength := length_le_length_escapeLiteral s.toList
  rw [toList_stringLiteral, List.cons_append, List.append_assoc, afterTextString?,
    QuoteForm.afterString?, List.singleton_append]
  refine afterQuoted?_escapeLiteral _ _ ?_
  rw [List.length_append, List.length_cons]
  omega

end ForeignWrap.Code

namespace ForeignWrap.Syntax

open Text

/-- A text can be read from its literal. -/
theorem textValue?_stringLiteral (s : String) : textValue? (stringLiteral s) = some s := by
  have hlength := Code.length_le_length_escapeLiteral s.toList
  have hvalue : unescape? ((escapeLiteral s.toList ++ ['"']).length + 1)
      (escapeLiteral s.toList ++ ['"']) = some s.toList := by
    refine Code.unescape?_escapeLiteral _ [] ?_
    rw [List.length_append, List.length_singleton]
    omega
  simp only [textValue?, Code.toList_stringLiteral, hvalue, Option.map_some, String.ofList_toList]

end ForeignWrap.Syntax
