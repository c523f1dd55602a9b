import ForeignWrap.Generation.Basic
import ForeignWrap.Proofs.Results
import ForeignWrap.Proofs.Source

/-!
# What a generated file holds

The file for some sources holds the prologue, the methods for equality and one method for each
directive, in the order of the sources and of their lines. What surrounds a directive shows in the
documentation of its method and nowhere else.

## Main definitions

* `ForeignWrap.Generation.directivePlaces`: where the directives of some sources are.
* `ForeignWrap.Generation.documentation`: how the method for a directive is documented.
* `ForeignWrap.Generation.Asked`: the method for the directive at a place.
* `ForeignWrap.Generation.unit_eq_start_common_asked`: the tokens of the file.
-/

namespace ForeignWrap

/-! ## Documentation is not looked at -/

theorem map_bind_eq {ε α β γ : Type} {step : Except ε α} {next : α → Except ε β} {f : β → γ} :
    (step >>= next).map f = step >>= fun a => (next a).map f := by
  cases step <;> rfl

/-- A line asks for the same method whatever stands above it, its documentation apart. -/
theorem Method.ofLine_eq_map {config : Config} {line : String} {docs : List Doc} :
    ofLine config line docs = (ofLine config line []).map ({ · with docs := docs }) := by
  simp only [ofLine, ofDirective, map_bind_eq]
  congr 1
  funext d
  congr 1
  funext args
  cases d.receiver? with
  | none => rfl
  | some receiver =>
    simp only [ofCall, map_bind_eq]
    rfl

namespace Generation

/-! ## The methods of directives -/

/-- Where the directives of some sources are, in order: each with its source and its line, counted
from zero. -/
def directivePlaces (sources : List Source) : List (Source × Nat) :=
  sources.flatMap fun source =>
    (Source.directiveIndices (Text.lines source.text)).map (source, ·)

/-- How the method for the directive at line `index` of the source `name` is documented: by what the
comment lines say, an empty line if there are any, and the place of the directive. -/
def documentation (name : String) (index : Nat) (comments : List String) : List Doc :=
  comments.map (.escaped <| Doc.textOf ·) ++ (if comments = [] then [] else [.escaped ""]) ++
    [.escaped (" Generated from " ++ name ++ ":" ++ toString (index + 1) ++ ".")]

/-- The method for the directive at a place: what its line alone asks for, documented by the comment
lines right above it. -/
inductive Asked (config : Config) : Source × Nat → Method → Prop where
  | method {source : Source} {index : Nat} {request : Request} {alone : Method} :
      Source.RequestAt source.name (Text.lines source.text) index request →
      Method.ofLine config request.line [] = .ok alone →
      Asked config (source, index)
        { alone with docs := documentation source.name index request.docs }

theorem ofLines_eq_documentation (name : String) (index : Nat) (comments : List String) :
    Doc.ofLines comments (some (Source.label name (index + 1))) =
      documentation name index comments := by
  have hplace : Doc.provenance (Source.label name (index + 1)) =
      " Generated from " ++ name ++ ":" ++ toString (index + 1) ++ "." := by
    change " Generated from " ++ Source.label name (index + 1) ++ "." = _
    simp only [Source.label, String.append_assoc]
  simp only [Doc.ofLines, documentation, hplace, List.isEmpty_map, List.isEmpty_iff]

/-- The requests of some sources are those for the places of their directives. -/
theorem requestAt_requestsOf (sources : List Source) :
    List.Forall₂
      (fun place => Source.RequestAt place.1.name (Text.lines place.1.text) place.2)
      (directivePlaces sources) (requestsOf sources) := by
  induction sources with
  | nil => exact .nil
  | cons source rest ih =>
    simp only [directivePlaces, requestsOf, List.flatMap_cons]
    refine List.rel_append ?_ ih
    rw [List.forall₂_map_left_iff]
    exact source.requestAt_requests

/-- A request is met if its line alone asks for a method. -/
theorem locatedMethod_eq_ok {config : Config} {request : Request} {alone : Method}
    (halone : Method.ofLine config request.line [] = .ok alone) :
    locatedMethod config request =
      .ok { alone with docs := Doc.ofLines request.docs (some request.label) } := by
  rw [locatedMethod, located, mapError_eq_ok_iff, methodOf, Method.ofLine_eq_map, halone]
  rfl

/-- The request for a place is met with the method for the directive there. -/
theorem exists_locatedMethod_eq_ok {config : Config} {source : Source} {index : Nat}
    {request : Request} {alone : Method}
    (hrequest : Source.RequestAt source.name (Text.lines source.text) index request)
    (halone : Method.ofLine config request.line [] = .ok alone) :
    ∃ m, locatedMethod config request = .ok m ∧ Asked config (source, index) m := by
  refine ⟨_, locatedMethod_eq_ok halone, ?_⟩
  have hlabel : request.label = Source.label source.name (index + 1) := by
    obtain ⟨⟩ := hrequest
    rfl
  rw [hlabel, ofLines_eq_documentation]
  exact .method hrequest halone

theorem preamble_eq_ok {config : Config} {start : List Code.Token} {common : List Method}
    (hstart : prologue config = .ok start) (hcommon : Method.equality config = .ok common) :
    preamble config = .ok (start ++ common.flatMap (·.code)) := by
  rw [preamble, hstart, hcommon]
  rfl

/-! ## The file -/

/-- A file is put together from what the configuration gives and the methods of the directives. -/
theorem unit_eq_ok {config : Config} {sources : List Source} {start : List Code.Token}
    {common methods : List Method} (hsources : sources ≠ []) (hstart : prologue config = .ok start)
    (hcommon : Method.equality config = .ok common)
    (hmethods : (requestsOf sources).mapM (locatedMethod config) = .ok methods) :
    unit config sources =
      .ok (start ++ common.flatMap (·.code) ++ methods.flatMap (·.code)) := by
  have hnonempty : sources.isEmpty = false := by simpa using hsources
  rw [unit, hnonempty, preamble_eq_ok hstart hcommon, hmethods]
  rfl

/-- **A file holds what its sources ask for**: after the prologue and the methods for equality, one
method for each directive, in order. -/
theorem unit_eq_start_common_asked {config : Config} {sources : List Source}
    {start : List Code.Token} {common : List Method} (hsources : sources ≠ [])
    (hstart : prologue config = .ok start) (hcommon : Method.equality config = .ok common)
    (hlines : ∀ source ∈ sources, ∀ line ∈ Text.lines source.text, HoldsDirective line →
      ∃ alone, Method.ofLine config line [] = .ok alone) :
    ∃ methods, List.Forall₂ (Asked config) (directivePlaces sources) methods ∧
      unit config sources =
        .ok (start ++ common.flatMap (·.code) ++ methods.flatMap (·.code)) ∧
      generate config sources =
        format (start ++ common.flatMap (·.code) ++ methods.flatMap (·.code)) := by
  have hmethods : ∃ methods, (requestsOf sources).mapM (locatedMethod config) = .ok methods ∧
      List.Forall₂ (Asked config) (directivePlaces sources) methods := by
    refine exists_mapM_eq_ok (requestAt_requestsOf sources) ?_
    rintro ⟨source, index⟩ hplace request hrequest
    have hsource : source ∈ sources := by
      simp only [directivePlaces, List.mem_flatMap, List.mem_map] at hplace
      obtain ⟨_, hsource, _, _, ⟨⟩⟩ := hplace
      exact hsource
    have hline : ∃ alone, Method.ofLine config request.line [] = .ok alone := by
      obtain ⟨hsplit, -, hdirective, -, -⟩ := hrequest
      exact hlines source hsource _ (by simp [hsplit]) hdirective
    obtain ⟨alone, halone⟩ := hline
    exact exists_locatedMethod_eq_ok hrequest halone
  obtain ⟨methods, hmapM, hasked⟩ := hmethods
  have hunit := unit_eq_ok hsources hstart hcommon hmapM
  refine ⟨methods, hasked, hunit, ?_⟩
  rw [generate, hunit]
  rfl

/-- The default configuration gives a prologue and the methods for equality. -/
theorem exists_prologue_and_equality_default :
    ∃ start common, prologue {} = .ok start ∧ Method.equality {} = .ok common := by
  have hprologue : (prologue {}).toBool = true := by decide +kernel
  have hequality : (Method.equality {}).toBool = true := by decide +kernel
  obtain ⟨start, hstart⟩ := exists_eq_ok_of_toBool hprologue
  obtain ⟨common, hcommon⟩ := exists_eq_ok_of_toBool hequality
  exact ⟨start, common, hstart, hcommon⟩

/-- So it gives a file for all sources whose directive lines each have a method. -/
theorem exists_unit_default_eq_ok {sources : List Source} {lines : List String}
    (hsources : sources ≠ []) (hrequests : (requestsOf sources).map (·.line) = lines)
    (hlines : ∀ line ∈ lines, ∃ alone, Method.ofLine {} line [] = .ok alone) :
    ∃ tokens, unit {} sources = .ok tokens := by
  obtain ⟨start, common, hstart, hcommon⟩ := exists_prologue_and_equality_default
  have hall : ∀ request ∈ requestsOf sources, ∃ m, locatedMethod {} request = .ok m := by
    intro request hrequest
    obtain ⟨alone, halone⟩ := hlines request.line (hrequests ▸ List.mem_map_of_mem hrequest)
    exact ⟨_, locatedMethod_eq_ok halone⟩
  obtain ⟨methods, hmethods⟩ := exists_forall₂ hall
  exact ⟨_, unit_eq_ok hsources hstart hcommon (mapM_eq_ok_iff.2 hmethods)⟩

/-- Two directives, one right below the other, in a text with code above them. -/
theorem unit_of_two_directives :
    ∃ sources start common methods,
      sources = [⟨"a.rs", "mod x;\n// Adds.\n//\n//wrap:expr add f l r\n//wrap:expr sub g l r\n"⟩] ∧
      prologue {} = .ok start ∧ Method.equality {} = .ok common ∧
      List.Forall₂ (Asked {}) (directivePlaces sources) methods ∧
      unit {} sources = .ok (start ++ common.flatMap (·.code) ++ methods.flatMap (·.code)) := by
  have hadd : (Method.ofLine {} "//wrap:expr add f l r" []).toBool = true := by decide +kernel
  have hsub : (Method.ofLine {} "//wrap:expr sub g l r" []).toBool = true := by decide +kernel
  have htext :
      Text.lines "mod x;\n// Adds.\n//\n//wrap:expr add f l r\n//wrap:expr sub g l r\n" =
        ["mod x;", "// Adds.", "//", "//wrap:expr add f l r", "//wrap:expr sub g l r"] := by
    decide +kernel
  obtain ⟨start, common, hstart, hcommon⟩ := exists_prologue_and_equality_default
  obtain ⟨sources, hsources⟩ : ∃ sources : List Source, sources = [⟨"a.rs",
      "mod x;\n// Adds.\n//\n//wrap:expr add f l r\n//wrap:expr sub g l r\n"⟩] := ⟨_, rfl⟩
  have hlines : ∀ source ∈ sources, ∀ line ∈ Text.lines source.text, HoldsDirective line →
      ∃ alone, Method.ofLine {} line [] = .ok alone := by
    rw [hsources, List.forall_mem_singleton, htext]
    simp only [List.forall_mem_cons]
    refine ⟨?_, ?_, ?_, fun _ => exists_eq_ok_of_toBool hadd,
      fun _ => exists_eq_ok_of_toBool hsub, by simp⟩
    · exact fun h => absurd h (by decide)
    · exact fun h => absurd h (by decide)
    · exact fun h => absurd h (by decide)
  obtain ⟨methods, hasked, hunit, -⟩ :=
    unit_eq_start_common_asked (by simp [hsources]) hstart hcommon hlines
  exact ⟨sources, start, common, methods, hsources, hstart, hcommon, hasked, hunit⟩

end Generation

end ForeignWrap
