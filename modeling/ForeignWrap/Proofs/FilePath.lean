import ForeignWrap.FilePath
import ForeignWrap.Proofs.Text.Cut
import Mathlib.Data.List.TakeWhile
import Mathlib.Tactic.SplitIfs

/-!
# Where wrappers are written

A path is told apart from others by its components: slashes that are doubled or at its end tell
nothing, and neither does a dot between them. The wrappers of a declaration file go beside it, under
its own name with more before the extension, so that no two files have the same wrappers. The name
`..rs` at the very end of a path is the one exception: without its extension it is no name.

## Main definitions

* `ForeignWrap.FilePath.Component`, `ForeignWrap.FilePath.components`: what a path is made of.
* `ForeignWrap.FilePath.IdleEnd`: slashes and dots at an end that tell nothing.
* `ForeignWrap.FilePath.EndsInDots`: paths that end in the name `..rs`.

## Main statements

* `ForeignWrap.FilePath.fileName?_eq_some_iff`: the name at the end of a path is its last component.
* `ForeignWrap.FilePath.output?_beside`: where wrappers are written, and that no two of them meet.
-/

namespace ForeignWrap.FilePath

/-! ## Components -/

/-- A component of a path. -/
inductive Component where
  /-- The slash that a path begins with. -/
  | root
  /-- The dot that a path begins with. -/
  | current
  | parent
  | name (name : String)
deriving DecidableEq, Repr

/-- The component that a piece of a path is, if it is one. Empty pieces and single dots are none. -/
def componentOf? (piece : List Char) : Option Component :=
  if piece = [] ∨ piece = ['.'] then none
  else if piece = ['.', '.'] then some .parent
  else some (.name (String.ofList piece))

/-- The component that a path begins with, if it is one that can only stand there. -/
def start? (path : List Char) : Option Component :=
  if path.head? = some '/' then some .root
  else if (piecesOf path).head? = some ['.'] then some .current
  else none

/-- The components of the characters of a path. -/
def componentsOf (path : List Char) : List Component :=
  (start? path).toList ++ (piecesOf path).filterMap componentOf?

/-- The components of a path. -/
def components (path : String) : List Component :=
  componentsOf path.toList

/-! ## Pieces -/

theorem exists_piecesOf_eq_cons (path : List Char) :
    ∃ piece others, piecesOf path = piece :: others := by
  fun_cases piecesOf path with
  | case1 => exact ⟨_, _, rfl⟩
  | case2 => exact ⟨_, _, rfl⟩
  | case3 => exact ⟨_, _, rfl⟩
  | case4 => exact ⟨_, _, rfl⟩

theorem piecesOf_cons_of_ne {c : Char} (h : c ≠ '/') {rest piece : List Char}
    {others : List (List Char)} (hrest : piecesOf rest = piece :: others) :
    piecesOf (c :: rest) = (c :: piece) :: others := by
  rw [piecesOf]
  · rw [hrest]
  · simpa using h

/-- A slash ends a piece. -/
theorem piecesOf_append_slash (before after : List Char) :
    piecesOf (before ++ '/' :: after) = piecesOf before ++ piecesOf after := by
  induction before with
  | nil => rfl
  | cons c before ih =>
    by_cases hc : c = '/'
    · subst hc
      simp [piecesOf, ih]
    · obtain ⟨piece, others, hbefore⟩ := exists_piecesOf_eq_cons before
      have hall : piecesOf (before ++ '/' :: after) = piece :: (others ++ piecesOf after) := by
        rw [ih, hbefore, List.cons_append]
      rw [List.cons_append, piecesOf_cons_of_ne hc hall, piecesOf_cons_of_ne hc hbefore,
        List.cons_append]

theorem piecesOf_of_notMem {piece : List Char} (h : '/' ∉ piece) : piecesOf piece = [piece] := by
  induction piece with
  | nil => rfl
  | cons c piece ih =>
    obtain ⟨hc, hpiece⟩ : '/' ≠ c ∧ '/' ∉ piece := by simpa using h
    exact piecesOf_cons_of_ne (Ne.symm hc) (ih hpiece)

/-- What a path begins with is told before its first slash. -/
theorem start?_append_slash (before after : List Char) :
    start? (before ++ '/' :: after) =
      if before.head?.getD '/' = '/' then some .root
      else if (piecesOf before).head? = some ['.'] then some .current else none := by
  obtain ⟨piece, others, hbefore⟩ := exists_piecesOf_eq_cons before
  rw [start?, piecesOf_append_slash, hbefore]
  cases before <;> simp

/-! ## Directories -/

/-- What may stand before a name: nothing, or characters that end with a slash. -/
inductive IsDirectory : List Char → Prop where
  | none : IsDirectory []
  | slash (before : List Char) : IsDirectory (before ++ ['/'])

/-- Behind a directory a piece is a component of its own, and it changes none before it. -/
theorem componentsOf_append {directory piece : List Char} (hdirectory : IsDirectory directory)
    (hpiece : '/' ∉ piece) (hdot : piece ≠ ['.']) :
    componentsOf (directory ++ piece) = componentsOf directory ++ (componentOf? piece).toList := by
  have hsingle : [piece].filterMap componentOf? = (componentOf? piece).toList := by
    cases h : componentOf? piece <;> simp [h]
  cases hdirectory with
  | none =>
    have hhead : piece.head? ≠ some '/' := fun h => hpiece (List.mem_of_head? h)
    have hstart : start? piece = Option.none := by
      simp [start?, hhead, piecesOf_of_notMem hpiece, hdot]
    have hnil : componentsOf [] = [] := rfl
    rw [List.nil_append, hnil, componentsOf, hstart, piecesOf_of_notMem hpiece, hsingle]
    rfl
  | slash before =>
    have hempty : [[]].filterMap componentOf? = [] := rfl
    rw [List.append_assoc, List.singleton_append, componentsOf, componentsOf, start?_append_slash,
      start?_append_slash, piecesOf_append_slash, piecesOf_append_slash, piecesOf_of_notMem hpiece,
      List.filterMap_append, List.filterMap_append, hsingle]
    simp only [piecesOf, hempty, List.append_nil, List.append_assoc]

/-- A slash after a path, and a slash and a dot, tell nothing. -/
theorem componentsOf_append_slash {path after : List Char} (hpath : path ≠ [])
    (hafter : after = [] ∨ after = ['.']) :
    componentsOf (path ++ '/' :: after) = componentsOf path := by
  have hpieces : piecesOf after = [after] := by
    refine piecesOf_of_notMem ?_
    obtain rfl | rfl := hafter <;> simp
  have hnone : [after].filterMap componentOf? = [] := by
    obtain rfl | rfl := hafter <;> rfl
  obtain ⟨c, rest, rfl⟩ := List.exists_cons_of_ne_nil hpath
  rw [componentsOf, componentsOf, start?_append_slash, piecesOf_append_slash, hpieces,
    List.filterMap_append, hnone, List.append_nil, start?]
  by_cases hc : c = '/' <;> simp [hc]

/-! ## Idle ends -/

/-- Slashes, and dots after slashes, at the end of a path, the last character first. -/
inductive IdleEnd : List Char → Prop where
  | nil : IdleEnd []
  | slash {idle : List Char} : IdleEnd idle → IdleEnd ('/' :: idle)
  | dot {idle : List Char} : IdleEnd idle → IdleEnd ('.' :: '/' :: idle)

theorem dropIdleEnd_append {idle : List Char} (h : IdleEnd idle) (before : List Char) :
    dropIdleEnd (idle ++ before) = dropIdleEnd before := by
  induction h with
  | nil => rfl
  | slash _ ih => simpa [dropIdleEnd] using ih
  | dot _ ih => simpa [dropIdleEnd] using ih

/-- What an idle end leaves ends in no slash, and in no dot after one. -/
theorem dropIdleEnd_head (path : List Char) :
    (dropIdleEnd path).head? ≠ some '/' ∧ ∀ rest, dropIdleEnd path ≠ '.' :: '/' :: rest := by
  fun_induction dropIdleEnd path with
  | case1 before ih => exact ih
  | case2 before ih => exact ih
  | case3 before hslash hdot =>
    refine ⟨fun h => ?_, fun rest h => hdot rest h⟩
    obtain ⟨rest, hrest⟩ := List.head?_eq_some_iff.1 h
    exact hslash rest hrest

theorem dropIdleEnd_eq_self {path : List Char} (hslash : path.head? ≠ some '/')
    (hdot : ∀ rest, path ≠ '.' :: '/' :: rest) : dropIdleEnd path = path := by
  rw [dropIdleEnd]
  · rintro rest rfl
    exact hslash rfl
  · exact fun rest h => hdot rest h

/-- A path is what its idle end leaves, and that end. -/
theorem exists_idleEnd (path : List Char) :
    ∃ idle, IdleEnd idle ∧ path = idle ++ dropIdleEnd path := by
  fun_induction dropIdleEnd path with
  | case1 before ih =>
    obtain ⟨idle, hidle, hbefore⟩ := ih
    exact ⟨'/' :: idle, hidle.slash, by rw [List.cons_append, ← hbefore]⟩
  | case2 before ih =>
    obtain ⟨idle, hidle, hbefore⟩ := ih
    cases hidle with
    | nil =>
      have hhead := (dropIdleEnd_head ('/' :: before)).1
      rw [← List.nil_append (dropIdleEnd _), ← hbefore] at hhead
      exact absurd rfl hhead
    | @slash idle hidle =>
      exact ⟨'.' :: '/' :: idle, hidle.dot, by rw [List.cons_append, ← hbefore]⟩
    | dot _ => simp at hbefore
  | case3 before => exact ⟨[], .nil, rfl⟩

/-- An idle end adds no components to a path. -/
theorem componentsOf_append_idle {idle path : List Char} (h : IdleEnd idle) (hpath : path ≠ []) :
    componentsOf (path ++ idle.reverse) = componentsOf path := by
  induction h with
  | nil => simp
  | slash _ ih =>
    rw [List.reverse_cons, ← List.append_assoc,
      componentsOf_append_slash (by simp [hpath]) (.inl rfl),
      ih]
  | dot _ ih =>
    rw [List.reverse_cons, List.reverse_cons, List.append_assoc, List.singleton_append,
      ← List.append_assoc, componentsOf_append_slash (by simp [hpath]) (.inr rfl), ih]

/-- An idle end alone names nothing. -/
theorem name_notMem_componentsOf_idle {idle : List Char} (h : IdleEnd idle) (name : String) :
    Component.name name ∉ componentsOf idle.reverse := by
  have hpieces : ∀ piece ∈ piecesOf idle.reverse, piece = [] ∨ piece = ['.'] := by
    induction h with
    | nil => simp [piecesOf]
    | slash _ ih =>
      rw [List.reverse_cons, piecesOf_append_slash]
      simpa [or_imp, forall_and, piecesOf] using ih
    | dot _ ih =>
      rw [List.reverse_cons, List.reverse_cons, List.append_assoc, List.singleton_append,
        piecesOf_append_slash]
      simpa [or_imp, forall_and, piecesOf] using ih
  have hstart : start? idle.reverse ≠ some (.name name) := by
    unfold start?
    split_ifs <;> simp
  intro hmem
  obtain hmem | hmem := List.mem_append.1 hmem
  · exact hstart (Option.mem_toList.1 hmem)
  · obtain ⟨piece, hpiece, hname⟩ := List.mem_filterMap.1 hmem
    rw [componentOf?, if_pos (hpieces piece hpiece)] at hname
    cases hname

/-! ## The name at the end -/

/-- A path that is a name in a directory, with an idle end after it. -/
structure Splits (path directory name idle : List Char) : Prop where
  path_eq : path = directory ++ name ++ idle.reverse
  isDirectory : IsDirectory directory
  slash_notMem : '/' ∉ name
  idleEnd : IdleEnd idle

variable {path directory name idle : List Char}

theorem isFileName_iff : isFileName name = true ↔ name ≠ [] ∧ name ≠ ['.'] ∧ name ≠ ['.', '.'] := by
  simp [isFileName, and_assoc]

theorem splitName_reverse (path : List Char) :
    splitName path = (((dropIdleEnd path.reverse).dropWhile (· != '/')).reverse,
      ((dropIdleEnd path.reverse).takeWhile (· != '/')).reverse) :=
  rfl

/-- Every path is split at its last name, and a dot is a name only without a directory. -/
theorem exists_splits (path : List Char) :
    ∃ idle, Splits path (splitName path).1 (splitName path).2 idle ∧
      ((splitName path).2 = [] ∨ (splitName path).2 = ['.'] → (splitName path).1 = []) := by
  obtain ⟨idle, hidle, hpath⟩ := exists_idleEnd path.reverse
  obtain ⟨hslash, hdot⟩ := dropIdleEnd_head path.reverse
  have hsplit := List.takeWhile_append_dropWhile (p := (· != '/')) (l := dropIdleEnd path.reverse)
  have hlast := List.head?_dropWhile_not (· != '/') (dropIdleEnd path.reverse)
  rw [splitName_reverse]
  generalize dropIdleEnd path.reverse = kept at *
  have hname : '/' ∉ kept.takeWhile (· != '/') := fun h => by simpa using List.mem_takeWhile_imp h
  generalize kept.takeWhile (· != '/') = name at *
  refine ⟨idle, ⟨?_, ?_, by simpa using hname, hidle⟩, ?_⟩
  · rw [← List.reverse_append, hsplit, ← List.reverse_append, ← hpath, List.reverse_reverse]
  · cases hrest : kept.dropWhile (· != '/') with
    | nil => exact .none
    | cons c rest =>
      obtain rfl : c = '/' := by simpa [hrest] using hlast
      rw [List.reverse_cons]
      exact .slash _
  · intro hnone
    cases hrest : kept.dropWhile (· != '/') with
    | nil => rfl
    | cons c rest =>
      obtain rfl : c = '/' := by simpa [hrest] using hlast
      rw [hrest] at hsplit
      simp only [List.reverse_eq_iff, List.reverse_nil, List.reverse_singleton] at hnone
      obtain rfl | rfl := hnone
      · exact absurd (by simp [← hsplit]) hslash
      · exact absurd hsplit.symm (hdot rest)

/-- A path is split at a name only once. -/
theorem Splits.splitName_eq (h : Splits path directory name idle) (hname : isFileName name = true) :
    splitName path = (directory, name) := by
  obtain ⟨rfl, hdirectory, hslash, hidle⟩ := h
  obtain ⟨hne, hdot, -⟩ := isFileName_iff.1 hname
  have hkept : dropIdleEnd (directory ++ name ++ idle.reverse).reverse =
      name.reverse ++ directory.reverse := by
    rw [List.reverse_append, List.reverse_reverse, dropIdleEnd_append hidle, List.reverse_append]
    have hrev : name.reverse ≠ [] := fun h => hne (List.reverse_eq_nil_iff.1 h)
    obtain ⟨c, rest, hrest⟩ := List.exists_cons_of_ne_nil hrev
    have hmem : ∀ d ∈ c :: rest, d ≠ '/' := by
      rintro d hd rfl
      rw [← hrest] at hd
      exact hslash (List.mem_reverse.1 hd)
    refine dropIdleEnd_eq_self ?_ fun more hmore => ?_
    · rw [hrest]
      simpa using hmem c List.mem_cons_self
    · rw [hrest] at hmore
      cases rest with
      | nil => exact hdot (by rw [← List.reverse_reverse name, hrest, (List.cons.inj hmore).1]; rfl)
      | cons d rest => exact hmem d (by simp) (List.cons.inj (List.cons.inj hmore).2).1
  have hinside : ∀ c ∈ name.reverse, (c != '/') = true := by
    intro c hc
    have hne : c ≠ '/' := by
      rintro rfl
      exact hslash (List.mem_reverse.1 hc)
    simpa using hne
  have hrest : directory.reverse.takeWhile (· != '/') = [] ∧
      directory.reverse.dropWhile (· != '/') = directory.reverse := by
    cases hdirectory <;> simp
  rw [splitName_reverse, hkept, List.takeWhile_append_of_pos hinside,
    List.dropWhile_append_of_pos hinside, hrest.1, hrest.2]
  simp

/-- A name is the last component of its path. -/
theorem Splits.componentsOf_eq (h : Splits path directory name idle) (hne : name ≠ [])
    (hdot : name ≠ ['.']) :
    componentsOf path = componentsOf directory ++ (componentOf? name).toList := by
  obtain ⟨rfl, hdirectory, hslash, hidle⟩ := h
  rw [componentsOf_append_idle hidle (by simp [hne]), componentsOf_append hdirectory hslash hdot]

theorem componentOf?_of_isFileName (h : isFileName name = true) :
    componentOf? name = some (.name (String.ofList name)) := by
  obtain ⟨hne, hdot, hdots⟩ := isFileName_iff.1 h
  rw [componentOf?, if_neg (by simp [hne, hdot]), if_neg hdots]

/-- The name at the end of a path is its last component. -/
theorem fileName?_eq_some_iff :
    fileName? path = some name ↔
      (componentsOf path).getLast? = some (.name (String.ofList name)) := by
  obtain ⟨idle, hsplits, hdirectory⟩ := exists_splits path
  rw [fileName?]
  generalize (splitName path).1 = directory at *
  generalize (splitName path).2 = last at *
  by_cases hlast : isFileName last = true
  · obtain ⟨hne, hdot, -⟩ := isFileName_iff.1 hlast
    rw [hsplits.componentsOf_eq hne hdot, componentOf?_of_isFileName hlast]
    simp [hlast, Text.ofList_eq_iff]
  · simp only [hlast, Bool.false_eq_true, if_false, reduceCtorEq, false_iff]
    intro hname
    have hmem := List.mem_of_getLast? hname
    simp only [isFileName_iff, ne_eq, not_and_or, not_not] at hlast
    obtain rfl | rfl | rfl := hlast
    · obtain rfl := hdirectory (.inl rfl)
      rw [hsplits.path_eq] at hmem
      exact name_notMem_componentsOf_idle hsplits.idleEnd _ hmem
    · obtain rfl := hdirectory (.inr rfl)
      rw [hsplits.path_eq, List.nil_append,
        componentsOf_append_idle hsplits.idleEnd (by simp)] at hmem
      have hcurrent : componentsOf ['.'] = [.current] := rfl
      simp [hcurrent] at hmem
    · have hparent : componentOf? ['.', '.'] = some .parent := rfl
      rw [hsplits.componentsOf_eq (by simp) (by simp), hparent] at hname
      simp at hname

/-! ## Declaration files -/

/-- A name is cut before its extension at its last dot, unless nothing stands before that. -/
theorem splitExtension?_eq_some_iff {stem extension : List Char} :
    splitExtension? name = some (stem, extension) ↔
      name = stem ++ '.' :: extension ∧ stem ≠ [] ∧ '.' ∉ extension := by
  constructor
  · intro h
    unfold splitExtension? at h
    split at h
    case h_1 => cases h
    case h_2 => cases h
    case h_3 extension' stem' hstem hcut =>
      obtain ⟨hname, hextension⟩ := Text.cutCharsAt?_eq_some_iff.1 hcut
      cases h
      refine ⟨?_, ?_, by simpa using hextension⟩
      · rw [← List.reverse_reverse name, hname]
        simp
      · intro hnil
        exact hstem (List.reverse_eq_nil_iff.1 hnil)
  · rintro ⟨rfl, hstem, hextension⟩
    have hcut : Text.cutCharsAt? '.' (stem ++ '.' :: extension).reverse =
        some (extension.reverse, stem.reverse) :=
      Text.cutCharsAt?_eq_some_iff.2 ⟨by simp, by simpa using hextension⟩
    rw [splitExtension?, hcut]
    split
    case h_1 h => simp_all
    case h_2 h => cases h
    case h_3 h =>
      cases h
      simp

/-- A declaration file is told by its last component. -/
theorem isDeclarationFile_iff :
    isDeclarationFile path = true ↔
      ∃ stem, stem ≠ [] ∧ fileName? path = some (stem ++ ".rs".toList) := by
  have hrs : ".rs".toList = '.' :: "rs".toList := rfl
  simp only [isDeclarationFile, extension?, beq_iff_eq, Option.bind_eq_bind, Option.pure_def, hrs,
    Option.bind_eq_some_iff]
  constructor
  · rintro ⟨name, hname, ⟨stem, extension⟩, hsplit, hextension⟩
    obtain rfl := Option.some.inj hextension
    obtain ⟨rfl, hstem, -⟩ := splitExtension?_eq_some_iff.1 hsplit
    exact ⟨stem, hstem, hname⟩
  · rintro ⟨stem, hstem, hname⟩
    exact ⟨_, hname, (stem, _), splitExtension?_eq_some_iff.2 ⟨rfl, hstem, by decide⟩, rfl⟩

/-- A name with an extension is put together from its stem and another extension. -/
theorem setExtension_eq {stem extension new : List Char}
    (h : Splits path directory (stem ++ '.' :: extension) idle) (hstem : stem ≠ [])
    (hextension : '.' ∉ extension) (hname : isFileName (stem ++ '.' :: extension) = true) :
    setExtension path new = directory ++ stem ++ '.' :: new := by
  rw [setExtension, h.splitName_eq hname]
  simp only [hname, if_true, FilePath.stem,
    splitExtension?_eq_some_iff.2 ⟨rfl, hstem, hextension⟩, Option.map_some, Option.getD_some]

/-- A path that ends in no name has no extension to set. -/
theorem setExtension_eq_self (h : fileName? path = none) (new : List Char) :
    setExtension path new = path := by
  have hname : isFileName (splitName path).2 = false := by
    rw [fileName?] at h
    simpa using h
  simp only [setExtension, hname, Bool.false_eq_true, if_false]

/-- A stem with a dot is a name, unless it is a dot itself and nothing follows. -/
theorem isFileName_append {stem extension : List Char} (hstem : stem ≠ [])
    (h : stem = ['.'] → extension ≠ []) : isFileName (stem ++ '.' :: extension) = true := by
  obtain ⟨c, rest, rfl⟩ := List.exists_cons_of_ne_nil hstem
  refine isFileName_iff.2 ⟨by simp, by simp, fun hdots => ?_⟩
  obtain ⟨rfl, hrest⟩ := List.cons.inj hdots
  cases rest with
  | nil => exact h rfl (List.cons.inj hrest).2
  | cons d rest => simp at hrest

/-- Two characters can be taken off an idle end that has as many. -/
theorem IdleEnd.short_or_drop (h : IdleEnd idle) :
    idle = [] ∨ idle = ['/'] ∨ ∃ c d rest, idle = c :: d :: rest ∧ IdleEnd rest := by
  cases h with
  | nil => exact .inl rfl
  | dot h => exact .inr (.inr ⟨_, _, _, rfl, h⟩)
  | slash h =>
    cases h with
    | nil => exact .inr (.inl rfl)
    | slash h => exact .inr (.inr ⟨_, _, _, rfl, h⟩)
    | dot h => exact .inr (.inr ⟨_, _, _, rfl, h.slash⟩)

/-- The extension of a declaration file is taken off by its length. Behind it there may be an idle
end, which then is what is taken off, and only the stem is left of the name in any case. -/
theorem withExtension_eq {stem : List Char} (h : Splits path directory (stem ++ ".rs".toList) idle)
    (hstem : stem ≠ []) : withExtension path "wrap.rs".toList =
      if stem = ['.'] ∧ idle = [] then directory ++ ['.', '.']
      else directory ++ stem ++ ".wrap.rs".toList := by
  have hname : isFileName (stem ++ ".rs".toList) = true :=
    isFileName_append hstem fun _ => by decide
  have hextension : extension? path = some "rs".toList := by
    have hfile : fileName? path = some (stem ++ ".rs".toList) := by
      rw [fileName?, h.splitName_eq hname]
      exact if_pos hname
    have hsplit : splitExtension? (stem ++ ".rs".toList) = some (stem, "rs".toList) :=
      splitExtension?_eq_some_iff.2 ⟨rfl, hstem, by decide⟩
    simp only [extension?, hfile, hsplit, Option.bind_eq_bind, Option.bind_some, Option.pure_def]
  have htake : ∀ (kept : List Char) (c d : Char), path = kept ++ [d, c] →
      path.take (path.length - "rs".toList.length) = kept := by
    rintro kept c d rfl
    simp
  obtain ⟨hpath, hdirectory, hslash, hidle⟩ := h
  have hstemSlash : '/' ∉ stem := fun hmem => hslash (List.mem_append_left _ hmem)
  rw [withExtension, hextension, Option.getD_some]
  obtain rfl | rfl | ⟨c, d, rest, rfl, hrest⟩ := hidle.short_or_drop
  · -- The extension itself is taken off, and its dot is left.
    have hsplits : Splits (directory ++ (stem ++ ['.'])) directory (stem ++ ['.']) [] :=
      ⟨by simp, hdirectory, by simpa using hstemSlash, .nil⟩
    rw [htake (directory ++ (stem ++ ['.'])) 's' 'r' (by simpa using hpath)]
    by_cases hdot : stem = ['.']
    · subst hdot
      have hnone : fileName? (directory ++ ['.', '.']) = none := by
        rw [Option.eq_none_iff_forall_ne_some]
        intro name hname
        have hparent : componentOf? ['.', '.'] = some .parent := rfl
        rw [fileName?_eq_some_iff, componentsOf_append hdirectory (by simp) (by simp),
          hparent] at hname
        simp at hname
      simpa using setExtension_eq_self hnone _
    · rw [setExtension_eq hsplits hstem (by simp) (isFileName_append hstem fun h => absurd h hdot),
        if_neg (by simp [hdot])]
      rfl
  · have hsplits : Splits (directory ++ (stem ++ ['.', 'r'])) directory (stem ++ ['.', 'r']) [] :=
      ⟨by simp, hdirectory, by simpa using hstemSlash, .nil⟩
    rw [htake (directory ++ (stem ++ ['.', 'r'])) '/' 's' (by simpa using hpath),
      setExtension_eq hsplits hstem (by simp) (isFileName_append hstem fun _ => by simp),
      if_neg (by simp)]
    rfl
  · have hsplits : Splits (directory ++ (stem ++ ".rs".toList) ++ rest.reverse) directory
        (stem ++ ".rs".toList) rest := ⟨rfl, hdirectory, hslash, hrest⟩
    rw [htake (directory ++ (stem ++ ".rs".toList) ++ rest.reverse) c d (by simp [hpath]),
      setExtension_eq hsplits hstem (by decide) hname, if_neg (by simp)]
    rfl

/-! ## Outputs -/

/-- Paths that end in the name `..rs`. -/
def EndsInDots (path : String) : Prop :=
  path = "..rs" ∨ ∃ before, path = before ++ "/..rs"

theorem endsInDots_iff {path : String} {stem : List Char}
    (h : Splits path.toList directory (stem ++ ".rs".toList) idle) (hstem : stem ≠ []) :
    EndsInDots path ↔ stem = ['.'] ∧ idle = [] := by
  have hname : isFileName (stem ++ ".rs".toList) = true :=
    isFileName_append hstem fun _ => by decide
  constructor
  · intro hdots
    have hsplits : ∃ other, Splits path.toList other (['.'] ++ ".rs".toList) [] := by
      obtain rfl | ⟨before, rfl⟩ := hdots
      · exact ⟨[], by simp, .none, by decide, .nil⟩
      · exact ⟨before.toList ++ ['/'], by simp, .slash _, by decide, .nil⟩
    obtain ⟨other, hother⟩ := hsplits
    have hsame := (h.splitName_eq hname).symm.trans (hother.splitName_eq (by decide))
    obtain ⟨rfl, hstem'⟩ := Prod.mk.inj hsame
    obtain rfl := List.append_cancel_right hstem'
    have hpath := h.path_eq.symm.trans hother.path_eq
    exact ⟨rfl, List.reverse_eq_nil_iff.1 (List.append_cancel_left hpath)⟩
  · rintro ⟨rfl, rfl⟩
    obtain ⟨hpath, hdirectory, -, -⟩ := h
    cases hdirectory with
    | none => exact .inl (by rw [← String.toList_inj, hpath]; simp)
    | slash before =>
      refine .inr ⟨String.ofList before, ?_⟩
      rw [← String.toList_inj, hpath]
      simp

/-- The stem of a declaration file is its last component without the extension. -/
theorem isDeclarationFile_components {path : String} :
    isDeclarationFile path.toList = true ↔
      ∃ stem, stem ≠ "" ∧ (components path).getLast? = some (.name (stem ++ ".rs")) := by
  rw [isDeclarationFile_iff]
  constructor
  · rintro ⟨stem, hstem, hname⟩
    refine ⟨String.ofList stem, by simpa using hstem, ?_⟩
    rw [components, fileName?_eq_some_iff.1 hname, String.ofList_append, String.ofList_toList]
  · rintro ⟨stem, hstem, hlast⟩
    refine ⟨stem.toList, by simpa using hstem, fileName?_eq_some_iff.2 ?_⟩
    rw [← components, hlast, ← String.toList_append, String.ofList_toList]

/-- Where the wrappers of a declaration file are written: beside it, with only its name changed. -/
theorem components_of_output? {path output : String} (h : output? path = some output) :
    ∃ parents stem, stem ≠ "" ∧ components path = parents ++ [.name (stem ++ ".rs")] ∧
      (EndsInDots path ∧ stem = "." ∧ components output = parents ++ [.parent] ∨
        ¬ EndsInDots path ∧ components output = parents ++ [.name (stem ++ ".wrap.rs")]) := by
  simp only [output?] at h
  split at h
  case isFalse => cases h
  case isTrue hfile =>
    obtain rfl := Option.some.inj h
    obtain ⟨stem, hstem, hname⟩ := isDeclarationFile_iff.1 hfile
    obtain ⟨idle, hsplits, -⟩ := exists_splits path.toList
    have hlast : (splitName path.toList).2 = stem ++ ".rs".toList := by
      rw [fileName?] at hname
      split at hname
      · exact Option.some.inj hname
      · cases hname
    rw [hlast] at hsplits
    generalize (splitName path.toList).1 = directory at *
    have hslash : '/' ∉ stem := fun hmem => hsplits.slash_notMem (List.mem_append_left _ hmem)
    have hfile : isFileName (stem ++ ".rs".toList) = true :=
      isFileName_append hstem fun _ => by decide
    have hwrap : isFileName (stem ++ ".wrap.rs".toList) = true :=
      isFileName_append hstem fun _ => by decide
    refine ⟨componentsOf directory, String.ofList stem, by simpa using hstem, ?_, ?_⟩
    · obtain ⟨hne, hdot, -⟩ := isFileName_iff.1 hfile
      rw [components, hsplits.componentsOf_eq hne hdot, componentOf?_of_isFileName hfile]
      simp [String.ofList_append]
    · rw [components, String.toList_ofList, withExtension_eq hsplits hstem,
        endsInDots_iff hsplits hstem]
      by_cases hdots : stem = ['.'] ∧ idle = []
      · have hparent : componentOf? ['.', '.'] = some .parent := rfl
        refine .inl ⟨hdots, by rw [hdots.1], ?_⟩
        rw [if_pos hdots, componentsOf_append hsplits.isDirectory (by simp) (by simp), hparent]
        rfl
      · obtain ⟨-, hdot, -⟩ := isFileName_iff.1 hwrap
        refine .inr ⟨hdots, ?_⟩
        rw [if_neg hdots, List.append_assoc,
          componentsOf_append hsplits.isDirectory (by simpa using hslash) hdot,
          componentOf?_of_isFileName hwrap]
        simp [String.ofList_append]

theorem exists_output?_iff {path : String} :
    (∃ output, output? path = some output) ↔
      ∃ stem, stem ≠ "" ∧ (components path).getLast? = some (.name (stem ++ ".rs")) := by
  rw [← isDeclarationFile_components, ← Option.isSome_iff_exists, output?, Option.isSome_ite]

/-- A file name with more before its extension is told from the one it was made from. -/
theorem append_wrap_ne (stem : String) : stem ++ ".rs" ≠ stem ++ ".wrap.rs" := fun h => by
  simp [← String.toList_inj] at h

/-- **The wrappers of a file are written beside it.** Only a path that ends in a name with the
extension `rs`, and more than that in it, has a place for its wrappers. It is next to the file,
under the name with `wrap` before the extension, and is such a path again, so that it is never the
file itself and no two files share one. Only the name `..rs` with nothing behind it is different:
what is written there is the directory above. -/
theorem output?_beside (path : String) :
    ((∃ output, output? path = some output) ↔
      ∃ stem, stem ≠ "" ∧ (components path).getLast? = some (.name (stem ++ ".rs"))) ∧
    ∀ output, output? path = some output →
      (∀ parents stem, components path = parents ++ [.name (stem ++ ".rs")] →
        (EndsInDots path → components output = parents ++ [.parent] ∧ output? output = none) ∧
        (¬ EndsInDots path → components output = parents ++ [.name (stem ++ ".wrap.rs")] ∧
          ∃ next, output? output = some next)) ∧
      components output ≠ components path ∧
      ∀ other output', output? other = some output' → components path ≠ components other →
        components output ≠ components output' := by
  refine ⟨exists_output?_iff, fun output houtput => ?_⟩
  obtain ⟨parents, stem, hstem, hpath, hcases⟩ := components_of_output? houtput
  refine ⟨fun parents' stem' hpath' => ?_, ?_, ?_⟩
  · -- The components of the path are read in one way only.
    obtain ⟨rfl, hname⟩ := List.append_inj' (hpath.symm.trans hpath') rfl
    obtain rfl : stem = stem' := by simpa [← String.toList_inj] using hname
    obtain ⟨hdots, -, hout⟩ | ⟨hdots, hout⟩ := hcases
    · refine ⟨fun _ => ⟨hout, ?_⟩, fun h => absurd hdots h⟩
      rw [Option.eq_none_iff_forall_ne_some]
      intro next hnext
      obtain ⟨_, _, hlast⟩ := exists_output?_iff.1 ⟨next, hnext⟩
      simp [hout] at hlast
    · refine ⟨fun h => absurd h hdots, fun _ => ⟨hout, ?_⟩⟩
      refine exists_output?_iff.2 ⟨stem ++ ".wrap", ?_, ?_⟩
      · intro hnil
        simpa using congrArg String.toList hnil
      · rw [hout, List.getLast?_concat, String.append_assoc]
        rfl
  · obtain ⟨-, -, hout⟩ | ⟨-, hout⟩ := hcases
    · simp [hout, hpath]
    · simp [hout, hpath, (append_wrap_ne stem).symm]
  · intro other output' houtput' hne hsame
    obtain ⟨parents', stem', -, hother, hcases'⟩ := components_of_output? houtput'
    refine hne ?_
    rw [hpath, hother]
    obtain ⟨-, rfl, hout⟩ | ⟨-, hout⟩ := hcases <;>
      obtain ⟨-, hstem', hout'⟩ | ⟨-, hout'⟩ := hcases' <;>
      obtain ⟨rfl, hlast⟩ := List.append_inj' (hout.symm.trans (hsame.trans hout')) rfl
    · rw [hstem']
    · cases hlast
    · cases hlast
    · obtain rfl : stem = stem' := by simpa [← String.toList_inj] using hlast
      rfl

/-- Two files in one directory, one of them reached over a dot. -/
theorem output?_beside_of_two_files :
    output? "src/./ast/int.rs/." = some "src/./ast/int.wrap.rs" ∧
      ∀ output', output? "src/ast/bool.rs" = some output' →
        components "src/./ast/int.wrap.rs" ≠ components output' := by
  have houtput : output? "src/./ast/int.rs/." = some "src/./ast/int.wrap.rs" := by decide
  refine ⟨houtput, fun output' houtput' => ?_⟩
  exact ((output?_beside "src/./ast/int.rs/.").2 _ houtput).2.2 "src/ast/bool.rs" output' houtput'
    (by decide)

/-- A name with an extension and a dot alone before it, of which the directory above is left. -/
theorem output?_of_dots :
    (components "..rs").getLast? = some (.name ("." ++ ".rs")) ∧ output? "..rs" = some ".." ∧
      components ".." ≠ [.name ("." ++ ".wrap.rs")] ∧ output? ".." = none := by
  decide

end ForeignWrap.FilePath
