import ForeignWrap.Proofs.Generation.Unit
import ForeignWrap.Proofs.Text.Line
import Mathlib.Data.Nat.Find

/-!
# Where generation fails

A directive that has no method ends the generation. The first one in the order of the sources and of
their lines is told, by its source and the number of its line, with its own error. What comes after
it is not looked at, and nothing else is told to be at fault as a directive.

## Main definitions

* `ForeignWrap.Generation.DirectiveAt`: a directive of a source, by the line feeds before it.
* `ForeignWrap.Generation.FirstFailure`: the first directive without a method.
* `ForeignWrap.Generation.generate_fails_first`: it is what is told.
-/

namespace ForeignWrap.Generation

/-! ## Directives by their lines -/

/-- The line of a source that `index` line feeds come before holds a directive. -/
def DirectiveAt (source : Source) (index : Nat) (line : String) : Prop :=
  Text.LineAt source.text.toList index line.toList ∧ HoldsDirective line

/-- Two sources have the same lines up to the one that `index` line feeds come before. -/
def AgreeUpTo (index : Nat) (source other : Source) : Prop :=
  ∀ i, i ≤ index → ∀ line, Text.LineAt source.text.toList i line ↔
    Text.LineAt other.text.toList i line

/-- The first directive that has no method is the one in `source` that `index` line feeds come
before, with its error. The sources `before` come before that source. -/
structure FirstFailure (config : Config) (before : List Source) (source : Source) (index : Nat)
    (e : Directive.Error) : Prop where
  earlier_sources : ∀ earlier ∈ before, ∀ i line, DirectiveAt earlier i line →
    ∃ m, Method.ofLine config line [] = .ok m
  earlier_lines : ∀ i, i < index → ∀ line, DirectiveAt source i line →
    ∃ m, Method.ofLine config line [] = .ok m
  fails : ∃ line, DirectiveAt source index line ∧ Method.ofLine config line [] = .error e

variable {config : Config}

/-- The first failure hangs only on the lines up to it. -/
theorem FirstFailure.of_agreeUpTo {before : List Source} {source other : Source} {index : Nat}
    {e : Directive.Error} (h : FirstFailure config before source index e)
    (hagree : AgreeUpTo index source other) : FirstFailure config before other index e := by
  refine ⟨h.earlier_sources, ?_, ?_⟩
  · intro i hi line hline
    exact h.earlier_lines i hi line ⟨(hagree i hi.le _).2 hline.1, hline.2⟩
  · obtain ⟨line, hline, he⟩ := h.fails
    exact ⟨line, ⟨(hagree index le_rfl _).1 hline.1, hline.2⟩, he⟩

/-- If some directive has no method, one of them is the first. -/
theorem exists_firstFailure {sources : List Source}
    (h : ∃ source ∈ sources, ∃ index line e, DirectiveAt source index line ∧
      Method.ofLine config line [] = .error e) :
    ∃ before source after index e, sources = before ++ source :: after ∧
      FirstFailure config before source index e := by
  induction sources with
  | nil =>
    obtain ⟨source, hsource, -⟩ := h
    simp at hsource
  | cons source rest ih =>
    by_cases hhere : ∃ index line e, DirectiveAt source index line ∧
        Method.ofLine config line [] = .error e
    · classical
      have hleast : ∀ i, i < Nat.find hhere → ∀ line, DirectiveAt source i line →
          ∃ m, Method.ofLine config line [] = .ok m := by
        intro i hi line hline
        cases hm : Method.ofLine config line [] with
        | ok m => exact ⟨m, rfl⟩
        | error e => exact absurd ⟨line, e, hline, hm⟩ (Nat.find_min hhere hi)
      obtain ⟨line, e, hline, he⟩ := Nat.find_spec hhere
      exact ⟨[], source, rest, Nat.find hhere, e, rfl, by simp, hleast, line, hline, he⟩
    · have hrest : ∃ other ∈ rest, ∃ index line e, DirectiveAt other index line ∧
          Method.ofLine config line [] = .error e := by
        obtain ⟨other, hother, hfails⟩ := h
        obtain rfl | hother := List.mem_cons.1 hother
        · exact absurd hfails hhere
        · exact ⟨other, hother, hfails⟩
      obtain ⟨before, failing, after, index, e, rfl, hfirst⟩ := ih hrest
      refine ⟨source :: before, failing, after, index, e, rfl, ?_, hfirst.earlier_lines,
        hfirst.fails⟩
      rintro earlier (_ | ⟨_, hearlier⟩) i line hline
      · cases hm : Method.ofLine config line [] with
        | ok m => exact ⟨m, rfl⟩
        | error e => exact absurd ⟨i, line, e, hline, hm⟩ hhere
      · exact hfirst.earlier_sources earlier hearlier i line hline

/-! ## Requests by their lines -/

/-- The request for a line is about that line, and says its number, counted from one. -/
theorem directiveAt_of_requestAt {source : Source} {index : Nat} {request : Request}
    (h : Source.RequestAt source.name (Text.lines source.text) index request) :
    DirectiveAt source index request.line ∧
      request.label = source.name ++ ":" ++ toString (index + 1) := by
  obtain @⟨before, after, block, docs, line, hsplit, hlength, hdirective, -, -⟩ := h
  refine ⟨⟨?_, hdirective⟩, rfl⟩
  rw [← Text.getElem?_lines_eq_some_iff, hsplit, ← hlength]
  simp

/-- Only what a line of a source holds is asked for. -/
theorem exists_directiveAt_of_mem_requests {source : Source} {request : Request}
    (h : request ∈ source.requests) : ∃ index, DirectiveAt source index request.line := by
  have hall : ∀ request ∈ source.requests, ∃ index, DirectiveAt source index request.line :=
    forall_mem_of_forall₂ source.requestAt_requests.flip
      fun _ index hrequest => ⟨index, (directiveAt_of_requestAt hrequest).1⟩
  exact hall request h

theorem mem_directiveIndices_iff {lines : List String} {index : Nat} :
    index ∈ Source.directiveIndices lines ↔
      ∃ line, lines[index]? = some line ∧ HoldsDirective line := by
  simp only [Source.directiveIndices, List.mem_filter, List.mem_range, Option.any_eq_true,
    decide_eq_true_eq]
  constructor
  · exact And.right
  · rintro ⟨line, hline, hdirective⟩
    exact ⟨(List.getElem?_eq_some_iff.1 hline).1, line, hline, hdirective⟩

/-- A directive is asked for after those on the lines above it and before all others. -/
theorem exists_requests_split {source : Source} {index : Nat} {line : String}
    (h : DirectiveAt source index line) :
    ∃ front request back, source.requests = front ++ request :: back ∧ request.line = line ∧
      request.label = source.name ++ ":" ++ toString (index + 1) ∧
      ∀ earlier ∈ front, ∃ i, i < index ∧ DirectiveAt source i earlier.line := by
  have hmem : index ∈ Source.directiveIndices (Text.lines source.text) :=
    mem_directiveIndices_iff.2 ⟨line, Text.getElem?_lines_eq_some_iff.2 h.1, h.2⟩
  obtain ⟨above, below, hsplit⟩ := List.append_of_mem hmem
  have hsorted : (above ++ index :: below).Pairwise (· < ·) := by
    rw [← hsplit]
    exact List.pairwise_lt_range.filter _
  have habove : ∀ i ∈ above, i < index := fun i hi =>
    (List.pairwise_append.1 hsorted).2.2 i hi index List.mem_cons_self
  have hrequests := source.requestAt_requests
  rw [hsplit] at hrequests
  obtain ⟨front, request, back, hback, hfront, hrequest⟩ := exists_split_of_forall₂ hrequests
  obtain ⟨hdirective, hlabel⟩ := directiveAt_of_requestAt hrequest
  refine ⟨front, request, back, hback, ?_, hlabel, ?_⟩
  · have hline := Text.getElem?_lines_eq_some_iff.2 hdirective.1
    rw [Text.getElem?_lines_eq_some_iff.2 h.1] at hline
    exact (Option.some.inj hline).symm
  · have hboth : List.Forall₂ (fun i request => i ∈ above ∧
        Source.RequestAt source.name (Text.lines source.text) i request) above front :=
      (List.forall₂_and_left _ _).2 ⟨fun i hi => hi, hfront⟩
    exact forall_mem_of_forall₂ hboth.flip fun earlier i ⟨hi, hearlier⟩ =>
      ⟨i, habove i hi, (directiveAt_of_requestAt hearlier).1⟩

/-! ## Methods of requests -/

/-- A request is met exactly if its line alone asks for a method. -/
theorem exists_locatedMethod_eq_ok_of_ofLine {request : Request}
    (h : ∃ m, Method.ofLine config request.line [] = .ok m) :
    ∃ m, locatedMethod config request = .ok m := by
  obtain ⟨m, hm⟩ := h
  exact ⟨_, locatedMethod_eq_ok hm⟩

/-- A request that is not met is told by its label, with the error of its line. -/
theorem locatedMethod_eq_error {request : Request} {e : Directive.Error}
    (h : Method.ofLine config request.line [] = .error e) :
    locatedMethod config request = .error (.directive request.label e) := by
  rw [locatedMethod, located, methodOf, Method.ofLine_eq_map, h]
  rfl

/-- Once the preamble is there, generation fails as the first request that is not met. -/
theorem generate_of_mapM_eq_error {sources : List Source} {start : List Code.Token}
    {common : List Method} {e : Error} (hsources : sources ≠ [])
    (hstart : prologue config = .ok start) (hcommon : Method.equality config = .ok common)
    (h : (requestsOf sources).mapM (locatedMethod config) = .error e) :
    generate config sources = .error e := by
  have hnonempty : sources.isEmpty = false := by simpa using hsources
  rw [generate, unit, hnonempty, preamble_eq_ok hstart hcommon, h]
  rfl

/-- Nothing past the requests is told to be at fault as a directive. -/
theorem format_ne_directive (tokens : List Code.Token) (location : String) (e : Directive.Error) :
    format tokens ≠ .error (.directive location e) := by
  unfold format
  split
  · simp
  · split <;> simp

theorem generate_ne_directive {sources : List Source} {start : List Code.Token}
    {common : List Method} (hstart : prologue config = .ok start)
    (hcommon : Method.equality config = .ok common)
    (hmethods : ∀ request ∈ requestsOf sources, ∃ m, locatedMethod config request = .ok m)
    (location : String) (e : Directive.Error) :
    generate config sources ≠ .error (.directive location e) := by
  intro h
  cases sources with
  | nil => cases h
  | cons source rest =>
    obtain hunit | ⟨tokens, -, hformat⟩ := bind_eq_error_iff.1 h
    · rw [unit, preamble_eq_ok hstart hcommon] at hunit
      have hmethods' : ((requestsOf (source :: rest)).mapM (locatedMethod config) >>= fun methods =>
          pure (start ++ common.flatMap Method.code ++ methods.flatMap Method.code)) =
            .error (.directive location e) := hunit
      obtain hrequests | ⟨methods, -, hdone⟩ := bind_eq_error_iff.1 hmethods'
      · obtain ⟨before, request, after, hsplit, -, herror⟩ := mapM_eq_error_iff.1 hrequests
        obtain ⟨m, hm⟩ := hmethods request (by simp [hsplit])
        rw [hm] at herror
        cases herror
      · cases hdone
    · exact format_ne_directive tokens location e hformat

/-- The first directive without a method is what generation fails for. -/
theorem generate_eq_of_firstFailure {before after : List Source} {source : Source} {index : Nat}
    {e : Directive.Error} {start : List Code.Token} {common : List Method}
    (hstart : prologue config = .ok start) (hcommon : Method.equality config = .ok common)
    (h : FirstFailure config before source index e) :
    generate config (before ++ source :: after) =
      .error (.directive (source.name ++ ":" ++ toString (index + 1)) e) := by
  refine generate_of_mapM_eq_error (by simp) hstart hcommon ?_
  obtain ⟨line, hdirective, he⟩ := h.fails
  obtain ⟨front, request, back, hsplit, hline, hlabel, hfront⟩ := exists_requests_split hdirective
  rw [mapM_eq_error_iff]
  refine ⟨requestsOf before ++ front, request, back ++ requestsOf after, ?_, ?_, ?_⟩
  · simp [requestsOf, hsplit]
  · intro earlier hearlier
    refine exists_locatedMethod_eq_ok_of_ofLine ?_
    obtain hearlier | hearlier := List.mem_append.1 hearlier
    · obtain ⟨other, hother, hrequest⟩ := List.mem_flatMap.1 hearlier
      obtain ⟨i, hi⟩ := exists_directiveAt_of_mem_requests hrequest
      exact h.earlier_sources other hother i earlier.line hi
    · obtain ⟨i, hi, hearlier⟩ := hfront earlier hearlier
      exact h.earlier_lines i hi earlier.line hearlier
  · rw [← hlabel]
    exact locatedMethod_eq_error (by rw [hline, he])

/-! ## The error that is told -/

/-- **Generation fails for the first directive without a method**, at its place and with its own
error, whatever comes after it; if some directive has no method, there is a first one; and if all
have one, no directive is told to be at fault. -/
theorem generate_fails_first {sources : List Source} {start : List Code.Token}
    {common : List Method} (hstart : prologue config = .ok start)
    (hcommon : Method.equality config = .ok common) :
    (∀ before source after index e, sources = before ++ source :: after →
      FirstFailure config before source index e →
        generate config sources =
          .error (.directive (source.name ++ ":" ++ toString (index + 1)) e) ∧
        ∀ other after', other.name = source.name → AgreeUpTo index source other →
          generate config (before ++ other :: after') = generate config sources) ∧
    ((∃ source ∈ sources, ∃ index line e, DirectiveAt source index line ∧
        Method.ofLine config line [] = .error e) →
      ∃ before source after index e, sources = before ++ source :: after ∧
        FirstFailure config before source index e) ∧
    ((∀ source ∈ sources, ∀ index line, DirectiveAt source index line →
        ∃ m, Method.ofLine config line [] = .ok m) →
      ∀ location e, generate config sources ≠ .error (.directive location e)) := by
  refine ⟨?_, exists_firstFailure, ?_⟩
  · rintro before source after index e rfl hfirst
    have hgenerate : ∀ after', generate config (before ++ source :: after') =
        .error (.directive (source.name ++ ":" ++ toString (index + 1)) e) :=
      fun _ => generate_eq_of_firstFailure hstart hcommon hfirst
    refine ⟨hgenerate after, ?_⟩
    intro other after' hname hagree
    rw [hgenerate after, ← hname]
    exact generate_eq_of_firstFailure hstart hcommon (hfirst.of_agreeUpTo hagree)
  · intro hall location e
    refine generate_ne_directive hstart hcommon ?_ location e
    intro request hrequest
    obtain ⟨source, hsource, hmem⟩ := List.mem_flatMap.1 hrequest
    obtain ⟨index, hindex⟩ := exists_directiveAt_of_mem_requests hmem
    exact exists_locatedMethod_eq_ok_of_ofLine (hall source hsource index request.line hindex)

/-- A directive that refers to an argument that is not there, below one that is in order, an empty
line and a line of code, all with carriage returns; another faulty line follows in a second
source. -/
theorem generate_fails_at_fourth_line :
    ∃ start common first second,
      prologue {} = .ok start ∧ Method.equality {} = .ok common ∧
      first = ⟨"a.rs", "//wrap:expr neg f x\r\n\r\nmod m;\r\n//wrap:expr lt l r : g l rr\r\n"⟩ ∧
      second = ⟨"b.rs", "//wrap:expr"⟩ ∧
      FirstFailure {} [] first 3 (.unknownArgument "rr") ∧
      generate {} [first, second] = .error (.directive "a.rs:4" (.unknownArgument "rr")) := by
  obtain ⟨start, common, hstart, hcommon⟩ := exists_prologue_and_equality_default
  have hneg : (Method.ofLine {} "//wrap:expr neg f x" []).toBool = true := by decide +kernel
  have hlt : Directive.ofLine {} "//wrap:expr lt l r : g l rr" =
      .error (.unknownArgument "rr") := by
    decide +kernel
  obtain ⟨first, hfirst⟩ : ∃ first : Source, first = ⟨"a.rs",
    "//wrap:expr neg f x\r\n\r\nmod m;\r\n//wrap:expr lt l r : g l rr\r\n"⟩ := ⟨_, rfl⟩
  have hlines : Text.lines first.text =
      ["//wrap:expr neg f x", "", "mod m;", "//wrap:expr lt l r : g l rr"] := by
    rw [hfirst]
    decide +kernel
  have hfailure : FirstFailure {} [] first 3 (.unknownArgument "rr") := by
    refine ⟨by simp, ?_, "//wrap:expr lt l r : g l rr", ⟨?_, by decide +kernel⟩, ?_⟩
    · rintro i hi line ⟨hline, hdirective⟩
      rw [← Text.getElem?_lines_eq_some_iff, hlines] at hline
      obtain rfl | rfl | rfl : i = 0 ∨ i = 1 ∨ i = 2 := by omega
      · obtain rfl : "//wrap:expr neg f x" = line := by simpa using hline
        exact exists_eq_ok_of_toBool hneg
      · obtain rfl : "" = line := by simpa using hline
        exact absurd hdirective (by decide +kernel)
      · obtain rfl : "mod m;" = line := by simpa using hline
        exact absurd hdirective (by decide +kernel)
    · rw [← Text.getElem?_lines_eq_some_iff, hlines]
      rfl
    · rw [Method.ofLine, hlt]
      rfl
  have hfails := @generate_fails_first {} [first, ⟨"b.rs", "//wrap:expr"⟩] start common hstart
    hcommon
  obtain ⟨hgenerate, -⟩ := hfails.1 [] first [⟨"b.rs", "//wrap:expr"⟩] 3 _ rfl hfailure
  refine ⟨start, common, first, _, hstart, hcommon, hfirst, rfl, hfailure, ?_⟩
  rw [hgenerate, hfirst]
  rfl

end ForeignWrap.Generation
