import ForeignWrap.Text.Cut

/-!
# What cut texts were

A text is put together again from the parts that it was cut into, and only one cut gives these
parts. The statements on lists of characters beside the definitions are carried over to texts.

## Main definitions

* `ForeignWrap.Text.dropStart?_eq_some_iff`, `ForeignWrap.Text.dropEnd?_eq_some_iff`: what a prefix
  and a suffix leave.
* `ForeignWrap.Text.cutAt?_eq_some_iff`, `ForeignWrap.Text.cutAt?_eq_none_iff`: where a text is cut.
-/

namespace ForeignWrap.Text

theorem ofList_eq_iff {cs : List Char} {s : String} : String.ofList cs = s ↔ cs = s.toList :=
  ⟨fun h => h ▸ String.toList_ofList.symm, fun h => h ▸ String.ofList_toList⟩

theorem dropStart?_eq_some_iff {start s rest : String} :
    dropStart? start s = some rest ↔ s = start ++ rest := by
  simp only [dropStart?, Option.map_eq_some_iff, afterPrefix?_eq_some_iff, ofList_eq_iff]
  constructor
  · rintro ⟨cs, hs, rfl⟩
    rw [← String.toList_inj, hs, String.toList_append]
  · rintro rfl
    exact ⟨rest.toList, String.toList_append, rfl⟩

/-- A text begins with another one exactly when it is that text and a rest. -/
theorem beginsWith_iff {start s : String} :
    beginsWith start s = true ↔ ∃ rest, s = start ++ rest := by
  have h : beginsWith start s = (dropStart? start s).isSome := by
    simp [beginsWith, dropStart?]
  simp only [h, Option.isSome_iff_exists, dropStart?_eq_some_iff]

theorem dropEnd?_eq_some_iff {ending s base : String} :
    dropEnd? ending s = some base ↔ s = base ++ ending := by
  simp only [dropEnd?, Option.map_eq_some_iff, afterPrefix?_eq_some_iff, ofList_eq_iff]
  constructor
  · rintro ⟨cs, hs, hcs⟩
    have h := congrArg List.reverse hs
    rw [List.reverse_reverse, List.reverse_append, List.reverse_reverse, hcs] at h
    rw [← String.toList_inj, h, String.toList_append]
  · rintro rfl
    exact ⟨base.toList.reverse, by simp, by simp⟩

theorem dropEnd?_eq_none_iff {ending s : String} :
    dropEnd? ending s = none ↔ ∀ base, s ≠ base ++ ending := by
  simp only [Option.eq_none_iff_forall_ne_some, ne_eq, dropEnd?_eq_some_iff]

theorem cutAt?_eq_some_iff {mark : Char} {s before after : String} :
    cutAt? mark s = some (before, after) ↔
      s = before ++ String.singleton mark ++ after ∧ mark ∉ before.toList := by
  simp only [cutAt?, Option.map_eq_some_iff, Prod.exists, Prod.mk.injEq, ofList_eq_iff,
    cutCharsAt?_eq_some_iff]
  constructor
  · rintro ⟨_, _, ⟨hs, hmark⟩, rfl, rfl⟩
    refine ⟨?_, hmark⟩
    rw [← String.toList_inj, hs]
    simp
  · rintro ⟨rfl, hmark⟩
    exact ⟨before.toList, after.toList, ⟨by simp, hmark⟩, rfl, rfl⟩

theorem cutCharsAt?_eq_none_iff {mark : Char} {cs : List Char} :
    cutCharsAt? mark cs = none ↔ mark ∉ cs := by
  induction cs with
  | nil => simp [cutCharsAt?]
  | cons c cs ih =>
    by_cases hc : c = mark
    · simp [cutCharsAt?, hc]
    · have hm : mark ≠ c := fun h => hc h.symm
      simp [cutCharsAt?, hc, hm, ih]

/-- Only a text without the mark is not cut. -/
theorem cutAt?_eq_none_iff {mark : Char} {s : String} : cutAt? mark s = none ↔ mark ∉ s.toList := by
  simp only [cutAt?, Option.map_eq_none_iff, cutCharsAt?_eq_none_iff]

end ForeignWrap.Text
