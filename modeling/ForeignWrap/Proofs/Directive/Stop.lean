import ForeignWrap.Proofs.Directive.Span
import Mathlib.Algebra.Ring.Parity
import Mathlib.Data.List.Induction

/-!
# Where the scan of a line stops

The scan of a line goes on over gaps, words and literals, and each of these has its quotes in pairs.
So it stops at the first place outside literals where none of them begins: at a quote that no other
one follows, or at white space that makes no gap. Only the first of these is a literal that is not
closed, though the error names both so.

## Main definitions

* `ForeignWrap.Directive.isStray`: white space that makes no gap.
* `ForeignWrap.Directive.StraysQuoted`: all such white space stands in literals.
* `ForeignWrap.Directive.StopsBefore`: where a scan stops.

## Main statements

* `ForeignWrap.Directive.tokensFrom_eq_error_iff`: a scan fails exactly where it stops.
* `ForeignWrap.Directive.tokenize_stops`: which lines have no tokens, and what their error says.
-/

namespace ForeignWrap.Directive

/-- White space that makes no gap. -/
def isStray (c : Char) : Bool :=
  Text.isBlank c && !isGap c

/-- All white space that makes no gap has an odd number of quotes before it: it stands in a
literal. -/
def StraysQuoted (cs : List Char) : Prop :=
  ∀ before c after, cs = before ++ c :: after → isStray c = true → Odd (before.count '"')

/-- A scan that has gone over `before` stops in front of `c`. It is outside literals, and `c` is
white space that makes no gap or a quote that no other one follows. -/
structure StopsBefore (before : List Char) (c : Char) (after : List Char) : Prop where
  even_count : Even (before.count '"')
  straysQuoted : StraysQuoted before
  stray_or_unclosed : isStray c = true ∨ c = '"' ∧ '"' ∉ after

/-- A scan of characters that begin at byte `start` stops somewhere, with this error. -/
def StopsWith (start : Nat) (cs : List Char) (e : Error) : Prop :=
  ∃ before c after, cs = before ++ c :: after ∧ StopsBefore before c after ∧
    e = .unterminatedLiteral (start + bytes before)

variable {start : Nat} {cs rest : List Char} {e : Error}

/-! ## Strays -/

theorem straysQuoted_nil : StraysQuoted [] := by
  intro before c after h
  simp at h

theorem StraysQuoted.of_append_left {ds : List Char} (h : StraysQuoted (cs ++ ds)) :
    StraysQuoted cs := by
  intro before c after hcs hstray
  exact h before c (after ++ ds) (by simp [hcs]) hstray

/-- Behind characters with their quotes in pairs, strays stand where they would stand without
them. -/
theorem straysQuoted_append_iff {ds : List Char} (heven : Even (cs.count '"')) :
    StraysQuoted (cs ++ ds) ↔ StraysQuoted cs ∧ StraysQuoted ds := by
  constructor
  · intro h
    refine ⟨h.of_append_left, fun before c after hds hstray => ?_⟩
    have hodd := h (cs ++ before) c after (by simp [hds]) hstray
    rw [List.count_append, Nat.odd_add] at hodd
    exact Nat.not_even_iff_odd.1 fun hbefore => Nat.not_odd_iff_even.2 heven (hodd.2 hbefore)
  · rintro ⟨hcs, hds⟩ before c after hsplit hstray
    obtain ⟨more, rfl, hmore⟩ | ⟨more, rfl, hmore⟩ := List.append_eq_append_iff.1 hsplit
    · rw [List.count_append]
      exact heven.add_odd (hds more c after hmore hstray)
    · cases more with
      | nil =>
        rw [List.nil_append] at hmore
        have hodd := hds [] c after hmore.symm hstray
        simp at hodd
      | cons d more =>
        obtain ⟨rfl, -⟩ := List.cons.inj hmore
        exact hcs before c more rfl hstray

/-- Where no character is a stray, all strays stand in literals. -/
theorem straysQuoted_of_forall (h : ∀ c ∈ cs, isStray c = false) : StraysQuoted cs := by
  rintro before c after rfl hstray
  rw [h c (by simp)] at hstray
  cases hstray

theorem isStray_of_isGap {c : Char} (h : isGap c = true) : isStray c = false := by
  simp [isStray, h]

theorem isStray_of_isWordChar {c : Char} (h : isWordChar c = true) : isStray c = false := by
  have hblank : Text.isBlank c = false := by simp_all [isWordChar]
  simp [isStray, hblank]

/-! ## What the scan goes over -/

/-- Characters that a scan goes over in one step: their quotes pair up, and it stops nowhere among
them, whatever follows. -/
structure IsPassed (cs : List Char) : Prop where
  even_count : Even (cs.count '"')
  straysQuoted : StraysQuoted cs
  not_stops : ∀ before c after rest, cs = before ++ c :: after →
    ¬ StopsBefore before c (after ++ rest)

/-- A scan stops behind what it has gone over. -/
theorem IsPassed.stopsWith_append_iff (h : IsPassed cs) :
    StopsWith start (cs ++ rest) e ↔ StopsWith (start + bytes cs) rest e := by
  constructor
  · rintro ⟨before, c, after, hsplit, hstops, rfl⟩
    obtain ⟨more, rfl, hmore⟩ | ⟨more, rfl, hmore⟩ := List.append_eq_append_iff.1 hsplit
    · refine ⟨more, c, after, hmore, ⟨?_, ?_, hstops.stray_or_unclosed⟩, ?_⟩
      · have heven := hstops.even_count
        rw [List.count_append, Nat.even_add] at heven
        exact heven.1 h.even_count
      · exact ((straysQuoted_append_iff h.even_count).1 hstops.straysQuoted).2
      · rw [bytes_append, Nat.add_assoc]
    · cases more with
      | nil =>
        rw [List.nil_append] at hmore
        rw [List.append_nil]
        exact ⟨[], c, after, hmore.symm,
          ⟨by simp, straysQuoted_nil, hstops.stray_or_unclosed⟩, rfl⟩
      | cons d more =>
        obtain ⟨rfl, rfl⟩ := List.cons.inj hmore
        exact absurd hstops (h.not_stops before c more rest rfl)
  · rintro ⟨before, c, after, rfl, hstops, rfl⟩
    refine ⟨cs ++ before, c, after, by simp, ⟨?_, ?_, hstops.stray_or_unclosed⟩, ?_⟩
    · rw [List.count_append]
      exact h.even_count.add hstops.even_count
    · exact (straysQuoted_append_iff h.even_count).2 ⟨h.straysQuoted, hstops.straysQuoted⟩
    · rw [bytes_append, Nat.add_assoc]

/-- A scan goes over characters that are neither quotes nor strays. -/
theorem isPassed_of_forall (hquote : '"' ∉ cs) (hstray : ∀ c ∈ cs, isStray c = false) :
    IsPassed cs where
  even_count := by simp [List.count_eq_zero_of_not_mem hquote]
  straysQuoted := straysQuoted_of_forall hstray
  not_stops := by
    rintro before c after rest rfl ⟨-, -, hc | ⟨rfl, -⟩⟩
    · rw [hstray c (by simp)] at hc
      cases hc
    · exact hquote (by simp)

theorem isPassed_gap {c : Char} (h : isGap c = true) : IsPassed [c] := by
  refine isPassed_of_forall ?_ ?_
  · intro hc
    obtain rfl := List.mem_singleton.1 hc
    exact absurd h (by decide)
  · simp [isStray_of_isGap h]

theorem isPassed_word (h : ∀ c ∈ cs, isWordChar c = true) : IsPassed cs := by
  refine isPassed_of_forall ?_ fun c hc => isStray_of_isWordChar (h c hc)
  intro hc
  exact absurd (h _ hc) (by decide)

/-- In a literal every place has one quote before it. -/
theorem count_of_literal {code before after : List Char} {c : Char} (hcode : '"' ∉ code)
    (h : '"' :: code ++ ['"'] = before ++ c :: after) (hne : before ≠ []) :
    before.count '"' = 1 := by
  obtain ⟨d, more, rfl⟩ := List.exists_cons_of_ne_nil hne
  obtain ⟨rfl, hrest⟩ := List.cons.inj h
  have hmore : '"' ∉ more := by
    intro hmem
    -- The characters before the last quote are code.
    have hlast : more ++ (c :: after).dropLast = code := by
      have := congrArg List.dropLast hrest
      rw [List.append_eq, List.dropLast_concat] at this
      rw [this, List.append_eq, List.dropLast_append_of_ne_nil (by simp)]
    exact hcode (hlast ▸ List.mem_append_left _ hmem)
  rw [List.count_cons_self, List.count_eq_zero_of_not_mem hmore]

theorem isPassed_literal {code : List Char} (hcode : '"' ∉ code) :
    IsPassed ('"' :: code ++ ['"']) where
  even_count := by
    simp [List.count_append, List.count_eq_zero_of_not_mem hcode]
  straysQuoted := by
    intro before c after h hstray
    by_cases hne : before = []
    · subst hne
      obtain ⟨rfl, -⟩ := List.cons.inj h
      cases hstray
    · rw [count_of_literal hcode h hne]
      exact odd_one
  not_stops := by
    rintro before c after rest h ⟨heven, -, hc⟩
    by_cases hne : before = []
    · subst hne
      obtain ⟨rfl, rfl⟩ := List.cons.inj h
      obtain hc | ⟨-, hafter⟩ := hc
      · cases hc
      · exact hafter (by simp)
    · rw [count_of_literal hcode h hne] at heven
      simp at heven

/-! ## The scan -/

theorem not_stopsWith_nil : ¬ StopsWith start [] e := by
  rintro ⟨before, c, after, h, -, -⟩
  simp at h

/-- Where a scan stops at once, it stops nowhere else. -/
theorem stopsWith_of_first {c : Char} (h : StopsBefore [] c rest)
    (hnot : ∀ before d after, rest = before ++ d :: after → ¬ StopsBefore (c :: before) d after) :
    StopsWith start (c :: rest) e ↔ e = .unterminatedLiteral start := by
  constructor
  · rintro ⟨before, d, after, hsplit, hstops, rfl⟩
    cases before with
    | nil => rfl
    | cons c' before =>
      obtain ⟨rfl, hrest⟩ := List.cons.inj hsplit
      exact absurd hstops (hnot before d after hrest)
  · rintro rfl
    exact ⟨[], c, rest, rfl, h, rfl⟩

/-- A scan stops at a stray. -/
theorem stopsWith_stray {c : Char} (h : isStray c = true) :
    StopsWith start (c :: rest) e ↔ e = .unterminatedLiteral start := by
  refine stopsWith_of_first ⟨by simp, straysQuoted_nil, .inl h⟩ ?_
  intro before d after _ hstops
  have hodd := hstops.straysQuoted [] c before rfl h
  simp at hodd

/-- A scan stops at a quote that no other one follows. -/
theorem stopsWith_quote (h : '"' ∉ rest) :
    StopsWith start ('"' :: rest) e ↔ e = .unterminatedLiteral start := by
  refine stopsWith_of_first ⟨by simp, straysQuoted_nil, .inr ⟨rfl, h⟩⟩ ?_
  rintro before d after rfl hstops
  have hbefore : '"' ∉ before := fun hmem => h (by simp [hmem])
  have heven := hstops.even_count
  simp [List.count_eq_zero_of_not_mem hbefore] at heven

/-- **A scan fails exactly where it stops.** -/
theorem tokensFrom_eq_error_iff : tokensFrom start cs = .error e ↔ StopsWith start cs e := by
  fun_induction tokensFrom start cs with
  | case1 start => simp [not_stopsWith_nil]
  | case2 start c rest hgap ih =>
    rw [ih, ← List.singleton_append, (isPassed_gap hgap).stopsWith_append_iff]
    simp
  | case3 start rest hclose =>
    have hquote : '"' ∉ rest := by
      intro hmem
      have hall := List.dropWhile_eq_nil_iff.1 hclose _ hmem
      simp at hall
    rw [stopsWith_quote hquote, Except.error.injEq, eq_comm]
  | case4 start rest code quote after hdrop stop hgap =>
    rename_i ih
    obtain ⟨hcode : '"' ∉ code, hrest⟩ := quote_cons_eq_append hdrop
    have hstop : stop = start + bytes ('"' :: code ++ ['"']) := by
      simp only [stop, List.cons_append, bytes_cons, bytes_append, bytes_nil, utf8Size_quote]
      omega
    rw [map_eq_error_iff, ih, hrest, (isPassed_literal hcode).stopsWith_append_iff, hstop]
  | case5 start c rest hgap hquote hblank =>
    rw [stopsWith_stray (by simp [isStray, hgap, hblank]), Except.error.injEq, eq_comm]
  | case6 start c rest hgap hquote hblank word text stop =>
    rename_i ih
    have hword : ∀ d ∈ word, isWordChar d = true :=
      fun _ => isWordChar_of_mem_cons_takeWhile hblank hquote
    have hrest : c :: rest = word ++ rest.dropWhile isWordChar := by simp [word]
    rw [map_eq_error_iff, ih, hrest, (isPassed_word hword).stopsWith_append_iff]

/-! ## Lines -/

/-- An odd number of quotes has a last one. -/
theorem exists_last_quote (h : Odd (cs.count '"')) :
    ∃ before after, cs = before ++ '"' :: after ∧ '"' ∉ after := by
  have hmem : '"' ∈ cs.reverse := by
    rw [List.mem_reverse, ← List.count_pos_iff]
    exact Nat.pos_of_ne_zero fun hzero => by simp [hzero] at h
  obtain ⟨front, back, hsplit, hfront⟩ := List.eq_append_cons_of_mem hmem
  refine ⟨back.reverse, front.reverse, ?_, by simpa using hfront⟩
  rw [← List.reverse_reverse cs, hsplit]
  simp

/-- Where a stray stands outside literals, a first one does. -/
theorem exists_first_stray (h : ¬ StraysQuoted cs) :
    ∃ before c after, cs = before ++ c :: after ∧ isStray c = true ∧ Even (before.count '"') ∧
      StraysQuoted before := by
  induction cs using List.reverseRecOn with
  | nil => exact absurd straysQuoted_nil h
  | append_singleton cs c ih =>
    by_cases hcs : StraysQuoted cs
    · simp only [StraysQuoted, not_forall] at h
      obtain ⟨before, d, after, hsplit, hstray, hodd⟩ := h
      obtain rfl | ⟨after, last, rfl⟩ := List.eq_nil_or_concat after
      · obtain ⟨rfl, hd⟩ := List.append_inj' hsplit rfl
        obtain rfl := List.singleton_injective hd
        exact ⟨cs, c, [], rfl, hstray, Nat.not_odd_iff_even.1 hodd, hcs⟩
      · rw [List.concat_eq_append, ← List.cons_append, ← List.append_assoc] at hsplit
        exact absurd (hcs before d after (List.append_inj' hsplit rfl).1 hstray) hodd
    · obtain ⟨before, d, after, rfl, hfirst⟩ := ih hcs
      exact ⟨before, d, after ++ [c], by simp, hfirst⟩

/-- A scan stops at the last quote if their number is odd, and at a stray otherwise, unless all of
them stand in literals. -/
theorem stopsWith_iff_of_straysQuoted (hquoted : StraysQuoted cs) :
    StopsWith start cs e ↔ Odd (cs.count '"') ∧ ∃ before after,
      cs = before ++ '"' :: after ∧ '"' ∉ after ∧
        e = .unterminatedLiteral (start + bytes before) := by
  constructor
  · rintro ⟨before, c, after, rfl, ⟨heven, -, hc | ⟨rfl, hafter⟩⟩, rfl⟩
    · exact absurd (hquoted before c after rfl hc) (Nat.not_odd_iff_even.2 heven)
    · refine ⟨?_, before, after, rfl, hafter, rfl⟩
      rw [List.count_append, List.count_cons_self, List.count_eq_zero_of_not_mem hafter]
      exact heven.add_odd odd_one
  · rintro ⟨hodd, before, after, rfl, hafter, rfl⟩
    rw [List.count_append, List.count_cons_self, List.count_eq_zero_of_not_mem hafter] at hodd
    exact ⟨before, '"', after, rfl, ⟨by simpa [Nat.odd_add_one] using hodd, hquoted.of_append_left,
      .inr ⟨rfl, hafter⟩⟩, rfl⟩

/-- **Which lines have no tokens, and what their error says.** Where all white space outside
literals makes gaps, a line has no tokens exactly if it has an odd number of quotes, and its error
is at the last one. In any other line, the error is at the first white space outside literals that
makes no gap, whatever quotes follow. -/
theorem tokenize_stops (line : String) :
    (StraysQuoted line.toList →
      ((∃ e, tokenize line = .error e) ↔ Odd (line.toList.count '"')) ∧
      ∀ e, tokenize line = .error e → ∃ before after : String,
        line = before ++ "\"" ++ after ∧ '"' ∉ after.toList ∧
          e = .unterminatedLiteral before.utf8ByteSize) ∧
    (¬ StraysQuoted line.toList → ∃ (before : String) (c : Char) (after : String),
      line = before ++ String.singleton c ++ after ∧ isStray c = true ∧
        Even (before.toList.count '"') ∧ StraysQuoted before.toList ∧
        tokenize line = .error (.unterminatedLiteral before.utf8ByteSize)) := by
  refine ⟨fun hquoted => ?_, fun hstray => ?_⟩
  · have hstops : ∀ e, tokenize line = .error e ↔ _ := fun e =>
      tokensFrom_eq_error_iff.trans (stopsWith_iff_of_straysQuoted hquoted)
    refine ⟨⟨fun ⟨e, he⟩ => ((hstops e).1 he).1, fun hodd => ?_⟩, fun e he => ?_⟩
    · obtain ⟨before, after, hline, hafter⟩ := exists_last_quote hodd
      exact ⟨_, (hstops _).2 ⟨hodd, before, after, hline, hafter, rfl⟩⟩
    · obtain ⟨-, before, after, hline, hafter, rfl⟩ := (hstops e).1 he
      refine ⟨String.ofList before, String.ofList after, ?_, by simpa using hafter, ?_⟩
      · rw [← String.toList_inj, hline]
        simp
      · rw [utf8ByteSize_eq, String.toList_ofList, Nat.zero_add]
  · obtain ⟨before, c, after, hline, hc, heven, hquoted⟩ := exists_first_stray hstray
    refine ⟨String.ofList before, c, String.ofList after, ?_, hc, by simpa using heven,
      by simpa using hquoted, ?_⟩
    · rw [← String.toList_inj, hline]
      simp
    · refine tokensFrom_eq_error_iff.2 ⟨before, c, after, hline, ⟨heven, hquoted, .inl hc⟩, ?_⟩
      rw [utf8ByteSize_eq, String.toList_ofList, Nat.zero_add]

/-- A literal that is not closed, and one that is before it. -/
theorem tokenize_stops_at_last_quote :
    StraysQuoted "Z3_mk_true \"\x0b\" \"oops".toList ∧
      ∃ before after : String, "Z3_mk_true \"\x0b\" \"oops" = before ++ "\"" ++ after ∧
        '"' ∉ after.toList ∧ tokenize "Z3_mk_true \"\x0b\" \"oops" =
          .error (.unterminatedLiteral before.utf8ByteSize) := by
  have hquoted : StraysQuoted "Z3_mk_true \"\x0b\" \"oops".toList := by
    have hline : "Z3_mk_true \"\x0b\" \"oops".toList = "Z3_mk_true ".toList ++
        (('"' :: ['\x0b'] ++ ['"']) ++ " \"oops".toList) := by decide
    rw [hline, straysQuoted_append_iff (by decide), straysQuoted_append_iff (by decide)]
    have hplain : ∀ text : String, text.toList.any isStray = false → StraysQuoted text.toList :=
      fun text htext => straysQuoted_of_forall fun c hc => by
        simpa using List.any_eq_false.1 htext c hc
    exact ⟨hplain "Z3_mk_true " (by decide), (isPassed_literal (by decide)).straysQuoted,
      hplain " \"oops" (by decide)⟩
  obtain ⟨hfails, hplace⟩ := (tokenize_stops "Z3_mk_true \"\x0b\" \"oops").1 hquoted
  obtain ⟨e, he⟩ := hfails.2 (by decide)
  obtain ⟨before, after, hline, hafter, rfl⟩ := hplace e he
  exact ⟨hquoted, before, after, hline, hafter, he⟩

/-- White space that makes no gap is taken for a quote that is not closed: alone it fails a line
without quotes, and before an open quote it is what the error points at. -/
theorem tokenize_eq_error_of_stray :
    (tokenize "\x0b" = .error (.unterminatedLiteral 0) ∧ ¬ Odd ("\x0b".toList.count '"')) ∧
      tokenize "\x0b\"" = .error (.unterminatedLiteral 0) ∧ "\x0b\"" = "\x0b" ++ "\"" ++ "" ∧
        "\x0b".utf8ByteSize = 1 := by
  decide +kernel

end ForeignWrap.Directive
