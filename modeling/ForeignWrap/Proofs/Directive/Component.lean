import ForeignWrap.Proofs.Directive.Grammar

/-!
# Components of directives

The texts that a directive is made of are taken from words, and no word is empty. Each is checked
where it is cut from its word, but a name loses its marker after that, and arguments that are taken
from the call are given the default type without a check. These two steps are where an accepted
directive can get an empty component.

## Main definitions

* `ForeignWrap.Directive.Filled`: directives without an empty component.
* `ForeignWrap.Directive.assemble_cases`: where the components of a directive come from.
* `ForeignWrap.Directive.filled_iff`: which accepted directives are filled.
-/

namespace ForeignWrap.Directive

/-- No component of a directive is empty, markers not counted. -/
structure Filled (d : Directive) : Prop where
  name : d.name ≠ ""
  result : d.result ≠ ""
  function : d.foreignFunction ≠ ""
  host_name : ∀ host ∈ d.hostArgs, host.name ≠ ""
  host_type : ∀ host ∈ d.hostArgs, host.type ≠ ""
  reference_name : ∀ text cast, .reference text cast ∈ d.foreignArgs → (splitMarker text).1 ≠ ""
  reference_cast : ∀ text type, .reference text (some type) ∈ d.foreignArgs → type ≠ ""

/-- A directive in which some argument stands for a sequence that has no name. -/
def HasNamelessSequence (d : Directive) : Prop :=
  ∃ cast, .reference variadicMarker cast ∈ d.foreignArgs

/-- A directive in which some argument of the method is of the default type since its argument of
the call names none. -/
def TakesDefault (d : Directive) : Prop :=
  d.passthrough = true ∧ ∃ text, .reference text none ∈ d.foreignArgs

/-! ## Components of words -/

theorem ne_empty_of_splitTyped {defaultType text name type : String}
    (h : splitTyped defaultType text = .ok (name, type)) : name ≠ "" ∧ type ≠ "" := by
  unfold splitTyped at h
  generalize (Text.cutAt? ':' text).getD (text, defaultType) = parts at h
  obtain ⟨before, after⟩ := parts
  by_cases hempty : (decide (before = "") || decide (after = "")) = true
  · simp [hempty] at h
  · simp only [hempty] at h
    cases h
    simpa using hempty

/-- A host argument is a word that is not empty, with a type that is not. -/
theorem exists_of_hostArgOfToken {defaultType : String} {token : Token} {host : HostArg}
    (h : hostArgOfToken defaultType token = .ok host) :
    host.type ≠ "" ∧ ∃ text, text ≠ "" ∧ splitMarker text = (host.name, host.variadic) := by
  unfold hostArgOfToken at h
  split at h
  · obtain ⟨⟨text, type⟩, htyped, rfl⟩ := map_eq_ok_iff.1 h
    obtain ⟨htext, htype⟩ := ne_empty_of_splitTyped htyped
    exact ⟨htype, text, htext, rfl⟩
  · split at h <;> cases h

theorem ne_empty_of_foreignArgOfToken {token : Token} {text : String} {cast : Option String}
    (h : foreignArgOfToken token = .ok (.reference text cast)) :
    text ≠ "" ∧ ∀ type, cast = some type → type ≠ "" := by
  unfold foreignArgOfToken at h
  split at h
  case h_1 | h_2 => cases h
  case h_3 | h_4 =>
    split at h
    case h_1 =>
      by_cases hempty : token.text = ""
      · simp [hempty] at h
      · rw [if_neg hempty] at h
        cases h
        exact ⟨hempty, by rintro _ ⟨⟩⟩
    case h_2 name type _ =>
      by_cases hempty : (decide (name = "") || decide (type = "")) = true
      · simp [hempty] at h
      · have hparts : name ≠ "" ∧ type ≠ "" := by simpa using hempty
        simp only [hempty] at h
        cases h
        exact ⟨hparts.1, by rintro _ ⟨⟩; exact hparts.2⟩

/-- The function and the arguments of a call are not empty. The function is a whole word, so no
check of its own is needed. -/
theorem ne_empty_of_callOfTokens {tokens : List Token} {function : String} {args : List ForeignArg}
    (htokens : ∀ token ∈ tokens, token.Formed) (h : callOfTokens tokens = .ok (function, args)) :
    function ≠ "" ∧ ∀ text cast, .reference text cast ∈ args →
      text ≠ "" ∧ ∀ type, cast = some type → type ≠ "" := by
  cases tokens with
  | nil => cases h
  | cons first rest =>
    rw [callOfTokens] at h
    split at h
    case isFalse => cases h
    case isTrue =>
      obtain ⟨args', hread, hpair⟩ := map_eq_ok_iff.1 h
      obtain ⟨rfl, rfl⟩ := Prod.mk.inj hpair
      refine ⟨(htokens first (by simp)).text_ne_empty, fun text cast hmem => ?_⟩
      exact forall_mem_of_forall₂ (mapM_eq_ok_iff.1 hread).flip
        (p := fun arg => ∀ text cast, arg = .reference text cast →
          text ≠ "" ∧ ∀ type, cast = some type → type ≠ "")
        (fun arg token harg text cast heq => ne_empty_of_foreignArgOfToken (heq ▸ harg)) _ hmem
        text cast rfl

/-- A name that is not empty keeps something without its marker, unless it is the marker. -/
theorem eq_marker_of_splitMarker {text : String} {marked : Bool} (htext : text ≠ "")
    (h : splitMarker text = ("", marked)) : text = variadicMarker ∧ marked = true := by
  cases splitMarker_eq_iff.1 h with
  | marker => exact ⟨String.empty_append, rfl⟩
  | bare => exact absurd rfl htext

/-! ## Components of directives -/

/-- Where the components of a directive come from: the call is read from the last tokens, and the
host arguments are read from words before it or are those that the call implies. -/
theorem assemble_cases {defaultType name result : String} {tokens : List Token} {d : Directive}
    (h : assemble defaultType name result tokens = .ok d) :
    d.name = name ∧ d.result = result ∧
      (∃ call, (∀ token ∈ call, token ∈ tokens) ∧
        callOfTokens call = .ok (d.foreignFunction, d.foreignArgs)) ∧
      (d.passthrough = false ∧
          (∃ words : List Token, words.mapM (hostArgOfToken defaultType) = .ok d.hostArgs) ∨
        d.passthrough = true ∧
          d.hostArgs = d.foreignArgs.filterMap (impliedHostArg defaultType)) := by
  unfold assemble at h
  split at h
  case h_1 separator call hdrop =>
    simp only [bind_eq_ok_iff] at h
    obtain ⟨hosts, hhosts, ⟨function, args⟩, hcall, h⟩ := h
    cases h
    refine ⟨rfl, rfl, ⟨call, fun token htoken => ?_, hcall⟩, .inl ⟨rfl, _, hhosts⟩⟩
    rw [(split_at_separator hdrop).1]
    exact List.mem_append_right _ (List.mem_cons_of_mem _ htoken)
  case h_2 =>
    simp only [bind_eq_ok_iff] at h
    obtain ⟨⟨function, args⟩, hcall, h⟩ := h
    cases h
    exact ⟨rfl, rfl, ⟨tokens, fun _ htoken => htoken, hcall⟩, .inr ⟨rfl, rfl⟩⟩

/-- What is known of the components of a directive before its rules are checked. A type is empty
only if it is the default one and was not written. -/
structure Components (defaultType : String) (d : Directive) : Prop where
  name : d.name ≠ ""
  result : d.result ≠ ""
  function : d.foreignFunction ≠ ""
  reference : ∀ text cast, .reference text cast ∈ d.foreignArgs →
    text ≠ "" ∧ ∀ type, cast = some type → type ≠ ""
  host_name : ∀ host ∈ d.hostArgs,
    ∃ text, text ≠ "" ∧ splitMarker text = (host.name, host.variadic)
  host_type : (∃ host ∈ d.hostArgs, host.type = "") ↔ defaultType = "" ∧ TakesDefault d

theorem components_of_ofLine_eq_ok {config : Config} {line : String} {d : Directive}
    (h : ofLine config line = .ok d) : Components config.defaultType d := by
  obtain ⟨tokens, htokens, h⟩ := bind_eq_ok_iff.1 h
  have hformed := formed_of_mem_tokenize htokens
  obtain ⟨keyword, head, rest, rfl, hkeyword⟩ := exists_of_ofTokens_eq_ok h
  obtain ⟨-, name, result, hhead, hassemble, -⟩ := (ofTokens_cons_eq_ok_iff hkeyword).1 h
  obtain ⟨rfl, rfl, ⟨call, hmem, hcall⟩, hhosts⟩ := assemble_cases hassemble
  obtain ⟨hname, hresult⟩ := ne_empty_of_splitTyped hhead
  obtain ⟨hfunction, hreference⟩ := ne_empty_of_callOfTokens
    (fun token htoken => hformed token (by simp [hmem token htoken])) hcall
  obtain ⟨hpass, words, hwords⟩ | ⟨hpass, himplied⟩ := hhosts
  · have hhost := forall_mem_of_forall₂ (mapM_eq_ok_iff.1 hwords).flip
      fun host token => exists_of_hostArgOfToken
    refine ⟨hname, hresult, hfunction, hreference, fun host hmem => (hhost host hmem).2, ?_⟩
    constructor
    · rintro ⟨host, hmem, htype⟩
      exact absurd htype (hhost host hmem).1
    · rintro ⟨-, hpass', -⟩
      simp [hpass] at hpass'
  · have hhost : ∀ host, host ∈ d.hostArgs ↔ ∃ text cast,
        .reference text cast ∈ d.foreignArgs ∧
          hostArg text (cast.getD config.defaultType) = host := by
      intro host
      rw [himplied, List.mem_filterMap]
      constructor
      · rintro ⟨_ | ⟨text, cast⟩, harg, himplies⟩
        · cases himplies
        · exact ⟨text, cast, harg, Option.some.inj himplies⟩
      · rintro ⟨text, cast, harg, rfl⟩
        exact ⟨_, harg, rfl⟩
    refine ⟨hname, hresult, hfunction, hreference, ?_, ?_⟩
    · intro host hmem
      obtain ⟨text, cast, harg, rfl⟩ := (hhost host).1 hmem
      exact ⟨text, (hreference text cast harg).1, rfl⟩
    · constructor
      · rintro ⟨host, hmem, htype⟩
        obtain ⟨text, cast, harg, rfl⟩ := (hhost host).1 hmem
        cases cast with
        | none => exact ⟨htype, hpass, text, harg⟩
        | some type => exact absurd htype ((hreference text _ harg).2 type rfl)
      · rintro ⟨hdefault, -, text, harg⟩
        exact ⟨_, (hhost _).2 ⟨text, none, harg, rfl⟩, hdefault⟩

/-- **An accepted directive has an empty component in two cases only**: an argument is the marker of
a sequence alone, or the default type is empty and an argument that is taken from the call has
it. -/
theorem filled_iff {config : Config} {line : String} {d : Directive}
    (h : ofLine config line = .ok d) :
    Filled d ↔ ¬ HasNamelessSequence d ∧ ¬ (config.defaultType = "" ∧ TakesDefault d) := by
  have hcomponents := components_of_ofLine_eq_ok h
  have hvalid := (valid_of_ofLine_eq_ok h).1
  constructor
  · intro hfilled
    constructor
    · rintro ⟨cast, harg⟩
      exact hfilled.reference_name _ cast harg rfl
    · intro hdefault
      obtain ⟨host, hhost, htype⟩ := hcomponents.host_type.2 hdefault
      exact hfilled.host_type host hhost htype
  · rintro ⟨hnamed, hdefault⟩
    have hreference : ∀ text cast, .reference text cast ∈ d.foreignArgs →
        (splitMarker text).1 ≠ "" := by
      intro text cast harg hempty
      obtain ⟨rfl, -⟩ := eq_marker_of_splitMarker (hcomponents.reference text cast harg).1
        (Prod.ext hempty rfl)
      exact hnamed ⟨cast, harg⟩
    refine ⟨hcomponents.name, hcomponents.result, hcomponents.function, ?_, ?_, hreference, ?_⟩
    · -- A host argument without a name is a sequence, and the call has to refer to it.
      intro host hhost hempty
      obtain ⟨text, htext, hsplit⟩ := hcomponents.host_name host hhost
      obtain ⟨-, hvariadic⟩ := eq_marker_of_splitMarker htext (hempty ▸ hsplit)
      obtain ⟨before, last, hargs, hrefers, -⟩ := hvalid.sequence_last host hhost hvariadic
      cases last with
      | literal code => exact not_refers_literal hrefers
      | reference text' cast =>
        rw [refers_reference_iff, hempty] at hrefers
        exact hreference text' cast (by simp [hargs]) (by rw [hrefers])
    · exact fun host hhost htype => hdefault (hcomponents.host_type.1 ⟨host, hhost, htype⟩)
    · exact fun text type harg => (hcomponents.reference text _ harg).2 type rfl

/-- The line of a sum has no empty component. -/
theorem filled_of_sum_line :
    ∃ d, ofLine {} "//wrap:expr add x rest... : Z3_mk_add x rest..." = .ok d ∧ Filled d := by
  have h : ofLine {} "//wrap:expr add x rest... : Z3_mk_add x rest..." = .ok ⟨"add", "Expr",
      [⟨"x", "Expr", false⟩, ⟨"rest", "Expr", true⟩], "Z3_mk_add",
      [.reference "x" none, .reference "rest..." none], true, false⟩ := by decide +kernel
  exact ⟨_, h, (filled_iff h).2 ⟨by simp [HasNamelessSequence, variadicMarker], by simp⟩⟩

/-- A sequence can be accepted without a name. -/
theorem not_filled_of_nameless_sequence :
    ∃ d, ofLine {} "//wrap:expr f x ... : Z3_f x ..." = .ok d ∧ ¬ Filled d := by
  have h : ofLine {} "//wrap:expr f x ... : Z3_f x ..." = .ok ⟨"f", "Expr",
      [⟨"x", "Expr", false⟩, ⟨"", "Expr", true⟩], "Z3_f",
      [.reference "x" none, .reference "..." none], true, false⟩ := by decide +kernel
  exact ⟨_, h, fun hfilled => hfilled.host_name ⟨"", "Expr", true⟩ (by simp) rfl⟩

end ForeignWrap.Directive
