import ForeignWrap.CommandLine
import ForeignWrap.Proofs.FileTree

/-!
# How the program ends

The status of the program tells how its work ended, and work that did not succeed has changed no
file. The program takes three ways: it turns its arguments down, it helps, or it generates.

## Main definitions

* `ForeignWrap.CommandLine.Ends`: how the program ends and what it leaves behind.
* `ForeignWrap.CommandLine.allOrNothing_and_ends`: runs do all or nothing, and the program says so.
-/

namespace ForeignWrap.CommandLine

open Generation (runFrom AllOrNothing allOrNothing outputPath disk_of_run_eq_error)

variable {σ : Type}

/-! ## Endings -/

/-- How the program ends after its work. -/
def ended {α : Type} : Except Generation.Error α × σ → Outcome × σ
  | (.ok _, s) => ({ status := 0 }, s)
  | (.error e, s) => ({ status := errorStatus e, err := report e }, s)

@[simp] theorem ended_ok {α : Type} (a : α) (s : σ) :
    ended (.ok a, s) = ({ status := 0 }, s) :=
  rfl

@[simp] theorem ended_error {α : Type} (e : Generation.Error) (s : σ) :
    ended (α := α) (.error e, s) = ({ status := errorStatus e, err := report e }, s) :=
  rfl

/-- Whether generation answers with an error. Code that has no layout stops the program while it is
laid out: there is no answer then, neither code nor an error. -/
def IsAnswer (e : Generation.Error) : Prop :=
  ∀ cause, e ≠ .layout cause

theorem errorStatus_eq_one_iff {e : Generation.Error} : errorStatus e = 1 ↔ IsAnswer e := by
  cases e <;> simp [errorStatus, IsAnswer]

theorem errorStatus_eq_stopped_iff {e : Generation.Error} : errorStatus e = 101 ↔ ¬ IsAnswer e := by
  cases e <;> simp [errorStatus, IsAnswer]

theorem errorStatus_mem (e : Generation.Error) : errorStatus e = 1 ∨ errorStatus e = 101 := by
  cases e <;> simp [errorStatus]

theorem status_ended_ne_two {α : Type} (work : Except Generation.Error α × σ) :
    (ended work).1.status ≠ 2 := by
  rcases work with ⟨e | a, s'⟩
  · have hstatus := errorStatus_mem e
    rw [ended_error]
    change errorStatus e ≠ 2
    omega
  · simp

variable [Files (StateM σ)]

/-! ## The three ways -/

/-- The program turns wrong arguments down, and does nothing else. -/
theorem run_of_error {args : List String} {e : Error} (s : σ) (h : parse args = .error e) :
    (run args : StateM σ Outcome).run s =
      ({ status := 2, err := ["error: " ++ e.message, usage] }, s) := by
  rw [run, h]
  rfl

theorem run_of_help {args : List String} (s : σ) (h : parse args = .ok .help) :
    (run args : StateM σ Outcome).run s = ({ status := 0, out := [usage] }, s) := by
  rw [run, h]
  rfl

/-- Where an output path is given, the program is a run to that path. -/
theorem run_of_output {args : List String} {options : Options} {output : String} (s : σ)
    (h : parse args = .ok (.generate options)) (houtput : options.output = some output) :
    (run args : StateM σ Outcome).run s = ended (runFrom s
      (Generation.runTo { defaultType := options.defaultType } options.inputs output)) := by
  rw [run, h]
  simp only [generate, houtput, runFrom, StateT.run_bind]
  rcases (Generation.runTo { defaultType := options.defaultType } options.inputs output :
    ExceptT _ (StateM σ) Unit).run.run s with ⟨_ | _, s'⟩ <;> rfl

/-- Where no output path is given, the program is a run beside the first input. -/
theorem run_of_no_output {args : List String} {options : Options} (s : σ)
    (h : parse args = .ok (.generate options)) (houtput : options.output = none) :
    (run args : StateM σ Outcome).run s = ended (runFrom s
      (Generation.run { defaultType := options.defaultType } options.inputs)) := by
  rw [run, h]
  simp only [generate, houtput, runFrom, StateT.run_bind, ExceptT.run_bind]
  rcases (Generation.run { defaultType := options.defaultType } options.inputs :
    ExceptT _ (StateM σ) String).run.run s with ⟨_ | _, s'⟩ <;> rfl

/-! ## What an ending tells -/

/-- An ending of the program tells how its work ended. -/
structure Tells {α : Type} (fs : FileSystem σ) (s : σ) (work : Except Generation.Error α × σ)
    (ending : Outcome × σ) : Prop where
  state_eq : ending.2 = work.2
  status_eq_zero_iff : ending.1.status = 0 ↔ ∃ a, work.1 = .ok a
  status_eq_one_iff : ending.1.status = 1 ↔ ∃ e, work.1 = .error e ∧ IsAnswer e
  status_eq_stopped_iff : ending.1.status = 101 ↔ ∃ e, work.1 = .error e ∧ ¬ IsAnswer e
  unchanged : ending.1.status ≠ 0 → fs.disk ending.2 = fs.disk s

/-- How the program ends and what it leaves behind. -/
structure Ends (fs : FileSystem σ) (args : List String) (s : σ) : Prop where
  status_eq_two_iff :
    ((run args : StateM σ Outcome).run s).1.status = 2 ↔ ∃ e, parse args = .error e
  rejected : ∀ e, parse args = .error e → ((run args : StateM σ Outcome).run s).2 = s
  helped : parse args = .ok .help → ((run args : StateM σ Outcome).run s).1.status = 0 ∧
    ((run args : StateM σ Outcome).run s).2 = s
  generatedTo : ∀ options output, parse args = .ok (.generate options) →
    options.output = some output →
    Tells fs s (runFrom s
      (Generation.runTo { defaultType := options.defaultType } options.inputs output))
      ((run args : StateM σ Outcome).run s)
  generatedBeside : ∀ options, parse args = .ok (.generate options) → options.output = none →
    Tells fs s (runFrom s (Generation.run { defaultType := options.defaultType } options.inputs))
      ((run args : StateM σ Outcome).run s)

/-- The ending after work tells how the work ended, if work that fails changes no file. -/
theorem tells_ended {α : Type} (fs : FileSystem σ) {s : σ} {work : Except Generation.Error α × σ}
    (hsame : ∀ e s', work = (.error e, s') → fs.disk s' = fs.disk s) :
    Tells fs s work (ended work) := by
  rcases work with ⟨e | a, s'⟩
  · have hstatus := errorStatus_mem e
    have hne : errorStatus e ≠ 0 := by omega
    exact {
      state_eq := rfl
      status_eq_zero_iff := by simp [hne]
      status_eq_one_iff := by simp [errorStatus_eq_one_iff]
      status_eq_stopped_iff := by simp [errorStatus_eq_stopped_iff]
      unchanged := fun _ => hsame e s' rfl }
  · exact {
      state_eq := rfl
      status_eq_zero_iff := by simp
      status_eq_one_iff := by simp
      status_eq_stopped_iff := by simp
      unchanged := fun h => absurd rfl h }

theorem status_ne_two_of_generate {args : List String} {options : Options} (s : σ)
    (h : parse args = .ok (.generate options)) :
    ((run args : StateM σ Outcome).run s).1.status ≠ 2 := by
  cases houtput : options.output with
  | none =>
    rw [run_of_no_output s h houtput]
    exact status_ended_ne_two _
  | some output =>
    rw [run_of_output s h houtput]
    exact status_ended_ne_two _

theorem ends (fs : FileSystem σ) (args : List String) (s : σ) : Ends fs args s := by
  rcases h : parse args with e | _ | options
  · have hrun := run_of_error s h
    exact {
      status_eq_two_iff := by simp [hrun, h]
      rejected := by simp [hrun]
      helped := by simp [h]
      generatedTo := by simp [h]
      generatedBeside := by simp [h] }
  · have hrun := run_of_help s h
    exact {
      status_eq_two_iff := by simp [hrun, h]
      rejected := by simp [h]
      helped := by simp [hrun]
      generatedTo := by simp [h]
      generatedBeside := by simp [h] }
  · exact {
      status_eq_two_iff := by simp [status_ne_two_of_generate s h, h]
      rejected := by simp [h]
      helped := by simp [h]
      generatedTo := by
        intro options' output hoptions houtput
        rw [run_of_output s hoptions houtput]
        exact tells_ended fs fun e s' => (allOrNothing fs _ _ output s).unchanged e s'
      generatedBeside := by
        intro options' hoptions houtput
        rw [run_of_no_output s hoptions houtput]
        exact tells_ended fs fun e s' => disk_of_run_eq_error fs }

/-- **Runs do all or nothing, and the program tells which.** A run to a file succeeds exactly if
there is code and it can be written, and then nothing has changed but that the file holds the code.
A run that fails changes no file. A run without an output path is a run to the output path of the
first input. The status of the program is 2 exactly if its arguments are wrong; where they ask for
generation it is 0 exactly if that succeeds, 1 exactly if that answers with an error, and 101
exactly if that is stopped by code without a layout. Whenever it is not 0 no file has changed. -/
theorem allOrNothing_and_ends (fs : FileSystem σ) (s : σ) :
    (∀ config inputs output, AllOrNothing fs config inputs output s) ∧
      (∀ config inputs, runFrom s (Generation.run config inputs) =
        match inputs with
        | [] => (.error .noInputs, s)
        | first :: _ =>
          match outputPath first with
          | .error e => (.error e, s)
          | .ok output =>
            match runFrom s (Generation.runTo config inputs output) with
            | (.error e, s') => (.error e, s')
            | (.ok _, s') => (.ok output, s')) ∧
      ∀ args, Ends fs args s :=
  ⟨fun config inputs output => allOrNothing fs config inputs output s,
    fun config inputs => Generation.runFrom_run config inputs s, fun args => ends fs args s⟩

/-- A declaration file whose directive refers to an argument that is not there, and wrappers that
were written before. -/
def oldWrappers : FileTree.Workspace where
  tree := ⟨[
    (["a.rs"], .file (Text.encodeUtf8 "//wrap:expr lt:Bool l r : Z3_mk_lt l rr")),
    (["a.wrap.rs"], .file (Text.encodeUtf8 "old"))]⟩

/-- The program answers with an error there, and the old wrappers stay. -/
theorem run_of_unknown_reference :
    ∃ ending : Outcome × FileTree.Workspace,
      (run ["-t", "Int", "-o", "a.wrap.rs", "a.rs"] : StateM _ Outcome).run oldWrappers = ending ∧
        ending.1.status = 1 ∧ ending.2.tree = oldWrappers.tree := by
  have hparse : parse ["-t", "Int", "-o", "a.wrap.rs", "a.rs"] =
      .ok (.generate ⟨"Int", some "a.wrap.rs", ["a.rs"]⟩) := by decide +kernel
  have hfirst : Generation.firstInput ["a.rs"] = .ok "a.rs" := by decide +kernel
  have hread : oldWrappers.tree.read "a.rs" = .ok "//wrap:expr lt:Bool l r : Z3_mk_lt l rr" := by
    decide +kernel
  have hgenerate : Generation.generate { defaultType := "Int" }
      [⟨"a.rs", "//wrap:expr lt:Bool l r : Z3_mk_lt l rr"⟩] =
        .error (.directive "a.rs:1" (.unknownArgument "rr")) := by decide +kernel
  obtain ⟨s', hfiles⟩ :=
    FileTree.runFrom_fromFiles { defaultType := "Int" } hfirst hread
  rw [hgenerate] at hfiles
  have hrun := Generation.runFrom_runTo_of_error "a.wrap.rs" hfiles
  obtain ⟨-, -, hends⟩ := allOrNothing_and_ends FileTree.Workspace.fileSystem oldWrappers
  have htells := (hends ["-t", "Int", "-o", "a.wrap.rs", "a.rs"]).generatedTo _ _ hparse rfl
  obtain ⟨ending, hending⟩ : ∃ ending : Outcome × FileTree.Workspace,
      (run ["-t", "Int", "-o", "a.wrap.rs", "a.rs"] : StateM _ Outcome).run oldWrappers = ending :=
    ⟨_, rfl⟩
  rw [hrun, hending] at htells
  have hstatus := htells.status_eq_one_iff.2 ⟨_, rfl, by simp [IsAnswer]⟩
  have hsame := htells.unchanged (by rw [hstatus]; decide)
  simp only [FileTree.Workspace.disk_fileSystem] at hsame
  exact ⟨ending, hending, hstatus, hsame⟩

/-- A declaration file without directives. -/
def emptyDeclarations : FileTree.Workspace where
  tree := ⟨[(["a.rs"], .file [])]⟩

/-- For a default type that is read but has no layout, the program is stopped: its arguments are
right and the run fails, but the status is not the one of an error. -/
theorem run_of_type_without_layout :
    ∃ options ending s' cause, parse ["-t", "dyn*T", "a.rs"] = .ok (.generate options) ∧
      runFrom emptyDeclarations
        (Generation.run { defaultType := options.defaultType } options.inputs) =
          (.error (.layout cause), s') ∧
      (run ["-t", "dyn*T", "a.rs"] : StateM _ Outcome).run emptyDeclarations = ending ∧
      ending.1.status = 101 := by
  have hparse : parse ["-t", "dyn*T", "a.rs"] =
      .ok (.generate ⟨"dyn*T", none, ["a.rs"]⟩) := by decide +kernel
  have hfirst : Generation.firstInput ["a.rs"] = .ok "a.rs" := by decide +kernel
  have hread : emptyDeclarations.tree.read "a.rs" = .ok "" := by decide +kernel
  have houtput : outputPath "a.rs" = .ok "a.wrap.rs" := by decide +kernel
  have hgenerate : Generation.generate { defaultType := "dyn*T" } [⟨"a.rs", ""⟩] =
      .error (.layout (.raw "Type" "dyn * T")) := by
    set_option maxRecDepth 100000 in decide +kernel
  obtain ⟨s', hfiles⟩ :=
    FileTree.runFrom_fromFiles { defaultType := "dyn*T" } hfirst hread
  rw [hgenerate] at hfiles
  have hrun : runFrom emptyDeclarations (Generation.run { defaultType := "dyn*T" } ["a.rs"]) =
      (.error (.layout (.raw "Type" "dyn * T")), s') := by
    rw [Generation.runFrom_run]
    simp only [houtput, Generation.runFrom_runTo_of_error "a.wrap.rs" hfiles]
  have hending := run_of_no_output emptyDeclarations hparse rfl
  rw [hrun] at hending
  exact ⟨_, _, s', _, hparse, hrun, hending, rfl⟩

end ForeignWrap.CommandLine
