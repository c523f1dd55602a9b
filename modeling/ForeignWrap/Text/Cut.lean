/-!
# Cutting texts

A text is cut after a prefix, before a suffix, or at the first place of a character.

## Main definitions

* `ForeignWrap.Text.dropStart?`, `ForeignWrap.Text.dropEnd?`: a text without its prefix or suffix.
* `ForeignWrap.Text.cutAt?`: a text cut in two at a character.
-/

namespace ForeignWrap.Text

/-! ## Prefixes and suffixes -/

/-- What follows `start` in `cs`, if `cs` begins with it. -/
def afterPrefix? : List Char → List Char → Option (List Char)
  | [], cs => some cs
  | _ :: _, [] => none
  | p :: ps, c :: cs => if p = c then afterPrefix? ps cs else none

/-- What follows `start` in the text `s`, if `s` begins with it. -/
def dropStart? (start s : String) : Option String :=
  (afterPrefix? start.toList s.toList).map String.ofList

/-- What comes before `ending` in the text `s`, if `s` ends with it. -/
def dropEnd? (ending s : String) : Option String :=
  (afterPrefix? ending.toList.reverse s.toList.reverse).map fun r => String.ofList r.reverse

/-- Whether the text `s` begins with `start`. -/
def beginsWith (start s : String) : Bool :=
  (afterPrefix? start.toList s.toList).isSome

@[simp] theorem afterPrefix?_append (start rest : List Char) :
    afterPrefix? start (start ++ rest) = some rest := by
  induction start with
  | nil => rfl
  | cons p ps ih => simp [afterPrefix?, ih]

theorem eq_append_of_afterPrefix? {start cs rest : List Char}
    (h : afterPrefix? start cs = some rest) : cs = start ++ rest := by
  induction start generalizing cs with
  | nil => simpa [afterPrefix?] using h
  | cons p ps ih =>
    cases cs with
    | nil => simp [afterPrefix?] at h
    | cons c cs =>
      by_cases hp : p = c
      · simp only [afterPrefix?, hp, if_true] at h
        simp [hp, ih h]
      · simp [afterPrefix?, hp] at h

/-- The prefixes of a list of characters are exactly what `afterPrefix?` takes off. -/
theorem afterPrefix?_eq_some_iff {start cs rest : List Char} :
    afterPrefix? start cs = some rest ↔ cs = start ++ rest :=
  ⟨eq_append_of_afterPrefix?, fun h => h ▸ afterPrefix?_append start rest⟩

/-! ## The first place of a character -/

/-- What comes before and after the first `mark`, if there is one. -/
def cutCharsAt? (mark : Char) : List Char → Option (List Char × List Char)
  | [] => none
  | c :: rest =>
    if c = mark then some ([], rest)
    else (cutCharsAt? mark rest).map fun (before, after) => (c :: before, after)

/-- What comes before and after the first `mark` in a text, if there is one. -/
def cutAt? (mark : Char) (s : String) : Option (String × String) :=
  (cutCharsAt? mark s.toList).map fun (before, after) => (String.ofList before, String.ofList after)

/-- A list of characters is cut at the only mark that has none before it. -/
theorem cutCharsAt?_eq_some_iff {mark : Char} {cs before after : List Char} :
    cutCharsAt? mark cs = some (before, after) ↔
      cs = before ++ mark :: after ∧ mark ∉ before := by
  induction cs generalizing before with
  | nil => simp [cutCharsAt?]
  | cons c rest ih =>
    by_cases hc : c = mark
    · cases before <;> simp_all [cutCharsAt?, eq_comm]
    · cases before with
      | nil => simp [cutCharsAt?, hc]
      | cons b before =>
        simp only [cutCharsAt?, hc, if_false, Option.map_eq_some_iff, Prod.exists, Prod.mk.injEq,
          List.cons.injEq, List.cons_append, List.mem_cons, not_or]
        constructor
        · rintro ⟨front, back, h, ⟨rfl, rfl⟩, rfl⟩
          exact ⟨⟨rfl, (ih.1 h).1⟩, fun h' => hc h'.symm, (ih.1 h).2⟩
        · rintro ⟨⟨rfl, h⟩, -, hb⟩
          exact ⟨before, after, ih.2 ⟨h, hb⟩, ⟨rfl, rfl⟩, rfl⟩

end ForeignWrap.Text
