import ForeignWrap.Proofs.Syntax.ScanPath

/-!
# Following types

## Main statements

* `ForeignWrap.Syntax.scans_readType`: what a type takes and writes can be followed.
* `ForeignWrap.Syntax.scanned_atDepth`: to any depth types and bounds can.
-/

namespace ForeignWrap.Syntax

open Code (Delimiter Token)
open Syntax.Parser

section Readers

variable {g : Grammar} {input final : Input}

/-! ## Types -/

theorem scans_parenthesizedType (hg : g.Scanned) {plus : Bool} {type : Ty}
    (h : g.parenthesizedType plus input = .ok (type, final)) :
    Scans input final .Settled .Done := by
  obtain ⟨enclosed, between, hinside, hrest⟩ := bind_input_eq_ok_iff.1 h
  have hdone : Scans input between .Settled .Done :=
    (scans_inside hinside (by decide)).widen fun _ _ hmark => .inl (hmark.among (by decide))
  cases enclosed with
  | type type =>
    cases hrest
    exact hdone
  | bound bound =>
    obtain ⟨bounds, last, hbounds, hrest⟩ := bind_input_eq_ok_iff.1 hrest
    cases hrest
    exact hdone.trans (scans_plusBounds hg hbounds)
  | single type ended =>
    have hrest := ahead_bind_eq_ok_iff.1 hrest
    split at hrest
    case isTrue =>
      cases hbound : Grammar.parenthesizedBound? type with
      | none =>
        rw [hbound] at hrest
        cases hrest
        exact hdone
      | some bound =>
        rw [hbound] at hrest
        obtain ⟨bounds, last, hbounds, hrest⟩ := bind_input_eq_ok_iff.1 hrest
        cases hrest
        exact hdone.trans (scans_plusBounds hg hbounds)
    case isFalse =>
      cases hrest
      exact hdone

theorem scans_abi? {abi : Option Abi} (h : Grammar.abi? input = .ok (abi, final)) :
    Scans input final .Settled .Settled := by
  obtain ⟨found, between, hkeyword, hrest⟩ := bind_input_eq_ok_iff.1 h
  obtain ⟨rfl, hextern⟩ | ⟨rfl, rfl, -⟩ :=
    scans_keyword?_leaves hkeyword (leaves_opener (by decide))
  · obtain ⟨text, last, htext, hrest⟩ := bind_input_eq_ok_iff.1 hrest
    cases hrest
    have hextern : Scans input between .Settled .Settled :=
      hextern.widen fun _ _ hmark => hmark.among (by decide)
    refine hextern.trans ?_
    have htext := ahead_bind_eq_ok_iff.1 htext
    split at htext
    case isTrue =>
      obtain ⟨text, last, hliteral, htext⟩ := bind_input_eq_ok_iff.1 htext
      cases htext
      exact (scans_literal hliteral).widen fun _ _ hmark => hmark.steady.settled
    case isFalse =>
      cases htext
      exact .refl _ _
  · cases hrest
    exact .refl _ _

/-- A function type, where one of its keywords comes. -/
theorem scans_functionType (hg : g.Scanned) {params : Tree (.maybe (.many .genericParam))}
    {type : Ty} (hfor : atWord "for" input.rest = false)
    (h : g.functionType params input = .ok (type, final)) : Scans input final .Settled .Done := by
  obtain ⟨inner, introduced, hinner, hrest⟩ := bind_input_eq_ok_iff.1 h
  obtain ⟨isUnsafe, marked, hunsafe, hrest⟩ := bind_input_eq_ok_iff.1 hrest
  obtain ⟨abi, called, habi, hrest⟩ := bind_input_eq_ok_iff.1 hrest
  obtain ⟨_, opened, hfn, hrest⟩ := bind_input_eq_ok_iff.1 hrest
  obtain ⟨args, closed, hargs, hrest⟩ := bind_input_eq_ok_iff.1 hrest
  obtain ⟨output, last, houtput, hrest⟩ := bind_input_eq_ok_iff.1 hrest
  cases hrest
  have hintroduced : introduced = input := by
    obtain ⟨found, between, hkeyword, hrest⟩ := bind_input_eq_ok_iff.1 hinner
    obtain ⟨rfl, rfl, -⟩ | ⟨rfl, rest, htokens, -⟩ := keyword?_eq_ok hkeyword
    · cases hrest
      rfl
    · rw [htokens] at hfor
      simp [atWord] at hfor
  subst hintroduced
  have hmarked : Scans introduced marked .Settled .Settled := by
    obtain ⟨-, hscans⟩ | ⟨-, rfl, -⟩ := scans_keyword?_leaves hunsafe (leaves_opener (by decide))
    · exact hscans.widen fun _ _ hmark => hmark.among (by decide)
    · exact .refl _ _
  have hopened := scans_keyword_leaves hfn (leaves_opener (by decide))
  have hclosed : Scans opened closed .Settled .Closed :=
    (scans_inside hargs (by decide)).widen fun _ _ hmark => hmark.among (by decide)
  exact hmarked.trans <| (scans_abi? habi).trans <| hopened.andThen
    (fun _ _ hmark => hmark.among (by decide)) (hclosed.trans (scans_arrowType? hg houtput))

theorem scans_macroCall {path : NamePath} {call : MacroCall}
    (h : macroCall path input = .ok (call, final)) : Scans input final (.After .word) .Closed := by
  obtain ⟨_, between, hbang, hrest⟩ := bind_input_eq_ok_iff.1 h
  obtain ⟨⟨delimiter, content⟩, last, hgroup, hrest⟩ := bind_input_eq_ok_iff.1 hrest
  cases hrest
  refine Scans.trans (scans_op hbang fun mark hmark => ⟨.bang, ?_, rfl⟩) (scans_anyGroup hgroup)
  obtain rfl := hmark.eq
  rfl

theorem toList_ofList {c : SyntaxClass} (items : List (Tree c)) :
    (Tree.ofList items).toList = items := by
  induction items with
  | nil => rfl
  | cons item items ih => exact congrArg (item :: ·) ih

theorem mapM_eq_none_of_mem {α β : Type} {f : α → Option β} {xs : List α} {x : α} (hx : x ∈ xs)
    (hfx : f x = none) : xs.mapM f = none := by
  induction xs with
  | nil => cases hx
  | cons y ys ih =>
    rw [List.mapM_cons]
    obtain rfl | hx := List.mem_cons.1 hx
    · rw [hfx]
      rfl
    · cases f y with
      | none => rfl
      | some b =>
        rw [ih hx]
        rfl

/-- A path of names ends with a word. -/
theorem Place.PathEnd.after_word {rooted : Bool} {segments : List (Tree .segment)}
    {names : NamePath} {mark : Mark} {rest : List Token} (h : Place.PathEnd segments mark rest)
    (hnames : (Tree.path .absent 0 rooted (.ofList segments)).names? = some names) :
    Place.After .word mark rest := by
  obtain ⟨last, hlast, rfl⟩ := h
  rw [Tree.names?, toList_ofList] at hnames
  cases last with
  | segment name => rfl
  | _ =>
    rw [mapM_eq_none_of_mem (List.mem_of_getLast? hlast) rfl] at hnames
    cases hnames

theorem scans_pathLikeType (hg : g.Scanned) {plus : Bool}
    {params : Tree (.maybe (.many .genericParam))} {type : Ty}
    (h : g.pathLikeType plus params input = .ok (type, final)) :
    Scans input final .Settled .Done := by
  obtain ⟨path, between, hpath, hrest⟩ := bind_input_eq_ok_iff.1 h
  obtain ⟨self, position, rooted, segments, rfl, hscans⟩ | ⟨rooted, segments, rfl, hscans⟩ :=
    scans_qualifiedPath hg hpath
  · cases hrest
    exact hscans.widen fun _ _ => Place.Closed.done
  · have hdone := hscans.widen fun _ _ hmark => hmark.closed.done
    have hlast : (do
        if params.toOption.isSome || (plus && atOp "+" between.rest) then
          let first := Tree.traitBound false false params
            (.path .absent 0 rooted (.ofList segments))
          let more ← if plus then g.looseBounds else pure []
          return .objectType false (.ofList (first :: more))
        return .pathType (.path .absent 0 rooted (.ofList segments)) : Parser Ty) between =
          .ok (type, final) → Scans input final .Settled .Done := by
      intro h
      split at h
      case isTrue =>
        split at h
        case isTrue =>
          obtain ⟨more, last, hmore, h⟩ := bind_input_eq_ok_iff.1 h
          cases h
          exact hdone.trans (scans_looseBounds hg hmore)
        case isFalse =>
          cases h
          exact hdone
      case isFalse =>
        cases h
        exact hdone
    have hrest := ahead_bind_eq_ok_iff.1 hrest
    split at hrest
    case isTrue =>
      cases hnames : (Tree.path .absent 0 rooted (.ofList segments)).names? with
      | none =>
        rw [hnames] at hrest
        exact hlast hrest
      | some names =>
        rw [hnames] at hrest
        obtain ⟨call, last, hcall, hrest⟩ := bind_input_eq_ok_iff.1 hrest
        cases hrest
        exact (hscans.andThen (fun _ _ hmark => hmark.after_word hnames)
          (scans_macroCall hcall)).widen fun _ _ => Place.Closed.done
    case isFalse => exact hlast hrest

theorem scans_objectType (hg : g.Scanned) {plus : Bool} {type : Ty}
    (h : g.objectType plus input = .ok (type, final)) : Scans input final .Settled .Done := by
  refine scans_orRaw h fun hread => ?_
  obtain ⟨_, opened, hdyn, hrest⟩ := bind_input_eq_ok_iff.1 hread
  obtain ⟨star, starred, hop, hrest⟩ := bind_input_eq_ok_iff.1 hrest
  obtain ⟨bounds, last, hbounds, hrest⟩ := bind_input_eq_ok_iff.1 hrest
  cases hrest
  have hopened := scans_keyword_leaves hdyn (leaves_opener (by decide))
  have hstarred : Scans opened starred (.After .opened) .Bounded := by
    obtain ⟨-, hscans⟩ | ⟨-, rfl, -⟩ := scans_op?_leaves hop leaves_star
    · exact (hscans.narrow fun _ _ hmark => hmark.among (by decide)).widen
        fun _ _ hmark => hmark.bounded (by decide)
    · exact (Scans.refl _ .Bounded).narrow fun _ _ hmark => hmark.bounded (by decide)
  exact (hopened.trans hstarred).trans (scans_objectBounds hg hbounds)

theorem scans_builtin (h : builtin input = .ok ((), final)) :
    Scans input final .Settled .Closed := by
  obtain ⟨_, marked, hkeyword, hrest⟩ := bind_input_eq_ok_iff.1 h
  obtain ⟨_, opened, hop, hrest⟩ := bind_input_eq_ok_iff.1 hrest
  obtain ⟨name, named, hname, hrest⟩ := bind_input_eq_ok_iff.1 hrest
  have hrest := ahead_bind_eq_ok_iff.1 hrest
  have hnamed := (scans_keyword_leaves hkeyword (leaves_word (by decide))).andThen
    (fun _ _ hmark => hmark.among (by decide)) <| (scans_op_leaves hop leaves_number).andThen
    (fun _ _ hmark => hmark.among (by decide)) (scans_name hname)
  split at hrest
  case isTrue => cases hrest
  case isFalse hgroup =>
    obtain ⟨⟨delimiter, content⟩, last, hany, hrest⟩ := bind_input_eq_ok_iff.1 hrest
    cases hrest
    have hany := ahead_bind_eq_ok_iff.1 hany
    refine hnamed.trans ?_
    generalize htokens : named.rest = tokens at hany hgroup
    split at hany
    case h_1 d content rest =>
      cases hany
      obtain rfl : delimiter = .parenthesis := by simpa [atGroup] using hgroup
      refine scans_token htokens rfl fun mark hmark => ?_
      obtain rfl := hmark.eq
      exact ⟨_, rfl, Place.closed_closed _⟩
    case h_2 => cases hany

/-- The rest of the reading of a type, once it is no group, function or path. -/
def Grammar.otherType (g : Grammar) (plus : Bool) (tokens : List Token) : Parser Ty := do
  if atWord "dyn" tokens then g.objectType plus
  else if atGroup .bracket tokens then
    inside .bracket do
      let elem ← g.type true
      if ← op? ";" then return .arrayType elem (← g.expr true)
      return .sliceType elem
  else if ← op? "*" then
    if ← keyword? "const" then return .pointerType false (← g.type false)
    if ← keyword? "mut" then return .pointerType true (← g.type false)
    expected [code "const", code "mut"]
  else if ← op? "&" then
    let lifetime ← lifetime?
    let mutable ← keyword? "mut"
    return .referenceType lifetime mutable (← g.type false)
  else if atOp "!" tokens && !atOp "=" tokens then
    op "!"
    return .neverType
  else if ← keyword? "impl" then
    return .implType (.ofList (← g.implBounds plus))
  else if ← keyword? "_" then
    return .inferType
  else if atLifetime tokens then
    return .objectType false (.ofList (← g.objectBounds true))
  else
    expected Grammar.typeStarts

/-- Whether a function type begins. -/
def atFunctionType (tokens : List Token) : Bool :=
  atWord "fn" tokens || atWord "unsafe" tokens || atWord "extern" tokens

/-- The reading of a type after the parameters that a `for` introduces. -/
def Grammar.typeAfterFor (g : Grammar) (plus : Bool)
    (params : Tree (.maybe (.many .genericParam))) (tokens : List Token) : Parser Ty := do
  if atGroup .parenthesis tokens then g.parenthesizedType plus
  else if atFunctionType tokens then g.functionType params
  else if atBuiltin tokens then
    let (_, tokens) ← asWritten builtin
    return .rawType tokens
  else if atPathName tokens || atOp "::" tokens || atOp "<" tokens then
    g.pathLikeType plus params
  else g.otherType plus tokens

theorem readType_eq (g : Grammar) (plus : Bool) : g.readType plus = (do
    let params ← g.forParams?
    let tokens ← ahead
    if params.toOption.isSome && !atFunctionType tokens && !atPathName tokens then
      expected Grammar.afterForParams
    g.typeAfterFor plus params tokens) :=
  rfl

theorem scans_pointer (hg : g.Scanned) {type : Ty} (h : (do
      if ← keyword? "const" then return .pointerType false (← g.type false)
      if ← keyword? "mut" then return .pointerType true (← g.type false)
      expected [code "const", code "mut"] : Parser Ty) input = .ok (type, final)) :
    Scans input final (.After .opened) .Done := by
  obtain ⟨isConst, between, hconst, hrest⟩ := bind_input_eq_ok_iff.1 h
  have hmarked : Scans input between (.After .opened) (.After .opened) :=
    scans_keyword? hconst (fun _ mark hmark => ⟨.opened, by rw [hmark.eq]; rfl, rfl⟩) fun _ _ => id
  cases isConst with
  | true =>
    obtain ⟨elem, last, helem, hrest⟩ := bind_input_eq_ok_iff.1 hrest
    cases hrest
    exact hmarked.andThen (fun _ _ hmark => hmark.free (by decide)) (hg.type helem)
  | false =>
    obtain ⟨isMut, between', hmut, hlast⟩ := bind_input_eq_ok_iff.1 hrest
    obtain ⟨rfl, hscans⟩ | ⟨rfl, rfl, -⟩ :=
      scans_keyword?_leaves hmut (leaves_opener (by decide))
    · obtain ⟨elem, last, helem, hlast⟩ := bind_input_eq_ok_iff.1 hlast
      cases hlast
      exact hmarked.andThen (fun _ _ hmark => hmark.among (by decide)) <| hscans.andThen
        (fun _ _ hmark => hmark.free (by decide)) (hg.type helem)
    · obtain ⟨_, _, _, hlast⟩ := bind_input_eq_ok_iff.1 hlast
      cases hlast

theorem scans_referenced (hg : g.Scanned) {type : Ty} (h : (do
      let lifetime ← lifetime?
      let mutable ← keyword? "mut"
      return .referenceType lifetime mutable (← g.type false) : Parser Ty) input =
        .ok (type, final)) : Scans input final (.After .ref) .Done := by
  obtain ⟨lifetime, named, hlifetime, hrest⟩ := bind_input_eq_ok_iff.1 h
  obtain ⟨mutable, marked, hmut, hrest⟩ := bind_input_eq_ok_iff.1 hrest
  obtain ⟨elem, last, helem, hrest⟩ := bind_input_eq_ok_iff.1 hrest
  cases hrest
  have hnamed : Scans input named (.After .ref) .Free := by
    have hlifetime := ahead_bind_eq_ok_iff.1 hlifetime
    split at hlifetime
    case isTrue =>
      obtain ⟨name, last, hname, hlifetime⟩ := bind_input_eq_ok_iff.1 hlifetime
      cases hlifetime
      refine scans_lifetime hname fun mark hmark => ?_
      obtain rfl := hmark.eq
      exact ⟨.opened, rfl, .inl (by decide)⟩
    case isFalse hno =>
      cases hlifetime
      exact (Scans.refl _ .Free).mono
        (fun mark hmark => .inr ⟨hmark.eq, by simpa using hno⟩) fun _ => id
  have hmarked : Scans named marked .Free .Free := by
    obtain ⟨-, hscans⟩ | ⟨-, rfl, -⟩ := scans_keyword?_leaves hmut (leaves_opener (by decide))
    · exact (hscans.narrow fun _ _ => Place.Free.settled).widen
        fun _ _ hmark => hmark.free (by decide)
    · exact .refl _ _
  exact hnamed.trans (hmarked.trans (hg.type helem))

theorem leaves_ampersand : Mark.Leaves (Code.op "&") .ref := by decide

/-- A type that begins with a sign or a keyword of its own. -/
theorem scans_otherType (hg : g.Scanned) {plus : Bool} {type : Ty}
    (h : g.otherType plus input.rest input = .ok (type, final)) :
    Scans input final .Fresh .Done ∨ op "!" input = .ok ((), final) := by
  unfold Grammar.otherType at h
  split at h
  case isTrue => exact .inl ((scans_objectType hg h).narrow fun _ _ => Place.Fresh.settled)
  case isFalse =>
  split at h
  case isTrue =>
    exact .inl (((scans_inside h (by decide)).narrow fun _ _ => Place.Fresh.settled).widen
      fun _ _ hmark => .inl (hmark.among (by decide)))
  case isFalse =>
  obtain ⟨star, starred, hstar, hafter⟩ := bind_input_eq_ok_iff.1 h
  obtain ⟨rfl, hscans⟩ | ⟨rfl, rfl, -⟩ := scans_op?_leaves hstar leaves_star
  · exact .inl ((hscans.narrow fun _ _ => Place.Fresh.settled).trans (scans_pointer hg hafter))
  clear h hstar
  obtain ⟨ref, opened, href, hrest⟩ := bind_input_eq_ok_iff.1 hafter
  obtain ⟨rfl, hscans⟩ | ⟨rfl, rfl, -⟩ := scans_op?_leaves href leaves_ampersand
  · exact .inl ((hscans.narrow fun _ _ => Place.Fresh.settled).trans (scans_referenced hg hrest))
  clear hafter href
  simp only [Bool.false_eq_true, if_false] at hrest
  split at hrest
  case isTrue =>
    obtain ⟨_, last, hbang, hrest⟩ := bind_input_eq_ok_iff.1 hrest
    cases hrest
    exact .inr hbang
  case isFalse =>
  obtain ⟨isImpl, opened', himpl, hother⟩ := bind_input_eq_ok_iff.1 hrest
  obtain ⟨rfl, hscans⟩ | ⟨rfl, rfl, -⟩ := scans_keyword?_leaves himpl (leaves_opener (by decide))
  · obtain ⟨bounds, last, hbounds, hother⟩ := bind_input_eq_ok_iff.1 hother
    cases hother
    exact .inl ((hscans.narrow fun _ _ => Place.Fresh.settled).andThen
      (fun _ _ hmark => hmark.bounded (by decide)) (scans_implBounds hg hbounds))
  clear hrest himpl
  obtain ⟨isInfer, opened', hinfer, hlast⟩ := bind_input_eq_ok_iff.1 hother
  obtain ⟨rfl, hscans⟩ | ⟨rfl, rfl, -⟩ := scans_keyword?_leaves hinfer (leaves_word (by decide))
  · cases hlast
    exact .inl ((hscans.narrow fun _ _ => Place.Fresh.settled).widen
      fun _ _ hmark => .inl (hmark.among (by decide)))
  clear hother hinfer
  simp only [Bool.false_eq_true, if_false] at hlast
  split at hlast
  case isTrue hlifetime =>
    obtain ⟨bounds, last, hbounds, hlast⟩ := bind_input_eq_ok_iff.1 hlast
    cases hlast
    refine .inl ((scans_objectBounds hg hbounds).mono ?_ fun _ => id)
    rintro mark (h | h)
    · exact .inr ⟨h, hlifetime⟩
    · exact .inl h
  case isFalse =>
    obtain ⟨_, _, _, hlast⟩ := bind_input_eq_ok_iff.1 hlast
    cases hlast

theorem atWord_for_of_atFunctionType {tokens : List Token} (h : atFunctionType tokens = true) :
    atWord "for" tokens = false := by
  cases tokens with
  | nil => rfl
  | cons t rest =>
    cases t with
    | word text =>
      have htext : text = "fn" ∨ text = "unsafe" ∨ text = "extern" := by
        simpa [atFunctionType, atWord, or_assoc] using h
      obtain rfl | rfl | rfl := htext <;> rfl
    | _ => rfl

theorem scans_typeAfterFor (hg : g.Scanned) {plus : Bool}
    {params : Tree (.maybe (.many .genericParam))} {type : Ty}
    (h : g.typeAfterFor plus params input.rest input = .ok (type, final)) :
    Scans input final .Settled .Done ∨
      atFunctionType input.rest = false ∧ atPathName input.rest = false ∧
        (Scans input final .Fresh .Done ∨ op "!" input = .ok ((), final)) := by
  unfold Grammar.typeAfterFor at h
  split at h
  case isTrue => exact .inl (scans_parenthesizedType hg h)
  case isFalse =>
  split at h
  case isTrue hfunction =>
    exact .inl (scans_functionType hg (atWord_for_of_atFunctionType hfunction) h)
  case isFalse hfunction =>
  split at h
  case isTrue =>
    obtain ⟨⟨_, tokens⟩, last, hwritten, h⟩ := bind_input_eq_ok_iff.1 h
    cases h
    exact .inl (scans_asWritten hwritten fun hread =>
      (scans_builtin hread).widen fun _ _ => Place.Closed.done)
  case isFalse =>
  split at h
  case isTrue => exact .inl (scans_pathLikeType hg h)
  case isFalse hpath =>
    simp only [Bool.or_eq_true, not_or, Bool.not_eq_true] at hfunction hpath
    exact .inr ⟨by simpa using hfunction, hpath.1.1, scans_otherType hg h⟩

/-- Every type is complete, and nothing comes after one that is an exclamation mark. -/
theorem scans_readType (hg : g.Scanned) {plus : Bool} {type : Ty}
    (h : g.readType plus input = .ok (type, final)) :
    Scans input final .Fresh .Done ∨ op "!" input = .ok ((), final) := by
  rw [readType_eq] at h
  obtain ⟨params, introduced, hparams, hrest⟩ := bind_input_eq_ok_iff.1 h
  have hrest := ahead_bind_eq_ok_iff.1 hrest
  split at hrest
  case isTrue =>
    obtain ⟨_, _, hexpected, _⟩ := bind_input_eq_ok_iff.1 hrest
    cases hexpected
  case isFalse hbound =>
    obtain ⟨rfl, rfl, -⟩ | ⟨hsome, hscans⟩ := scans_forParams? hg hparams
    · obtain hscans | ⟨-, -, hother⟩ := scans_typeAfterFor hg hrest
      · exact .inl (hscans.narrow fun _ _ => Place.Fresh.settled)
      · exact hother
    · have hscans : Scans input introduced .Fresh .Settled :=
        hscans.widen fun _ _ hmark => hmark.among (by decide)
      refine .inl (hscans.trans ?_)
      obtain hscans | ⟨hfunction, hpath, -⟩ := scans_typeAfterFor hg hrest
      · exact hscans
      · simp [hsome, hfunction, hpath] at hbound

theorem scanned_around (hg : g.Scanned) : g.around.Scanned where
  type h := by
    obtain hscans | hbang := scans_readType hg h
    · exact hscans.narrow fun _ _ => .inr
    · exact scans_op hbang fun mark hmark => ⟨.closed, by
        cases mark <;> first | rfl | simp [Place.Free] at hmark, .inl (Place.closed_closed _)⟩
  bound h := (scans_readBound hg h).narrow fun _ _ => .inl

/-- To any depth, types and bounds can be followed. -/
theorem scanned_atDepth (depth : Nat) : (Grammar.atDepth depth).Scanned := by
  induction depth with
  | zero =>
    constructor
    · intro _ _ _ _ h
      cases h
    · intro _ _ _ _ h
      cases h
  | succ depth ih => exact scanned_around ih

end Readers

end ForeignWrap.Syntax
