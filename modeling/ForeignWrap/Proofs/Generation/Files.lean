import ForeignWrap.FileTree
import ForeignWrap.Generation.Files

/-!
# What generation does to files

All code is there before anything is written, so a run that fails leaves all files as they were. A
run that succeeds has written one file, and that file holds the code.

## Main definitions

* `ForeignWrap.FileSystem`: a file system that work reads and writes, with what a write does.
* `ForeignWrap.Generation.Keeps`: work that leaves all files as they were.
* `ForeignWrap.Generation.AllOrNothing`: what a run to a file does.
* `ForeignWrap.Generation.allOrNothing`: every run does that.
-/

namespace ForeignWrap

/-! ## File systems -/

/-- What files there are: what is at each place, and which place a path leads to. -/
structure Storage where
  Disk : Type
  Place : Type
  locate : Disk → (path : String) → Except FileError Place
  node? : Disk → Place → Option FileNode

/-- From one disk to the next, a text was written: its path leads to a file that holds the text and
nothing else, and all other places are as they were. -/
def Storage.Wrote (storage : Storage) (path text : String) (d d' : storage.Disk) : Prop :=
  ∃ place, storage.locate d' path = .ok place ∧
    storage.node? d' place = some (.file (Text.encodeUtf8 text)) ∧
    ∀ other, other ≠ place → storage.node? d' other = storage.node? d other

/-- A file system that work with states of type `σ` reads and writes. A write fails and changes
nothing, or it replaces all that its file held. -/
structure FileSystem (σ : Type) [Files (StateM σ)] extends Storage where
  disk : σ → Disk
  write : Disk → (path text : String) → Except FileError Disk
  disk_read : ∀ path s, disk ((Files.read path : StateM σ _).run s).2 = disk s
  disk_tell : ∀ events s, disk ((Files.tell events : StateM σ _).run s).2 = disk s
  run_write_of_ok : ∀ path text s d, write (disk s) path text = .ok d →
    ∃ s', (Files.write path text : StateM σ _).run s = (.ok (), s') ∧ disk s' = d
  run_write_of_error : ∀ path text s cause, write (disk s) path text = .error cause →
    ∃ s', (Files.write path text : StateM σ _).run s = (.error cause, s') ∧ disk s' = disk s
  wrote_of_write_eq_ok : ∀ d path text d', write d path text = .ok d' →
    toStorage.Wrote path text d d'

namespace Generation

variable {σ : Type} {α β : Type}

/-- How work that is begun in a state ends: its result, and the state after it. -/
def runFrom (s : σ) (work : ExceptT Error (StateM σ) α) : Except Error α × σ :=
  work.run.run s

theorem runFrom_pure (s : σ) (a : α) :
    runFrom s (pure a : ExceptT Error (StateM σ) α) = (.ok a, s) :=
  rfl

theorem runFrom_bind (s : σ) (work : ExceptT Error (StateM σ) α)
    (next : α → ExceptT Error (StateM σ) β) :
    runFrom s (work >>= next) =
      match runFrom s work with
      | (.ok a, s') => runFrom s' (next a)
      | (.error e, s') => (.error e, s') := by
  simp only [runFrom, ExceptT.run_bind, StateT.run_bind]
  rcases work.run.run s with ⟨_ | _, s'⟩ <;> rfl

theorem runFrom_orFail (s : σ) (result : Except Error α) :
    runFrom s (orFail result) = (result, s) :=
  rfl

variable [Files (StateM σ)]

/-! ## Work that only reads -/

/-- Work that leaves all files as they were, however it ends. -/
def Keeps (fs : FileSystem σ) (work : ExceptT Error (StateM σ) α) : Prop :=
  ∀ s, fs.disk (runFrom s work).2 = fs.disk s

variable {fs : FileSystem σ}

theorem Keeps.pure (a : α) : Keeps fs (Pure.pure a) :=
  fun _ => rfl

theorem keeps_orFail (result : Except Error α) : Keeps fs (orFail result) :=
  fun _ => rfl

theorem Keeps.bind {work : ExceptT Error (StateM σ) α} {next : α → ExceptT Error (StateM σ) β}
    (hwork : Keeps fs work) (hnext : ∀ a, Keeps fs (next a)) : Keeps fs (work >>= next) := by
  intro s
  rw [runFrom_bind]
  have hs := hwork s
  rcases hrun : runFrom s work with ⟨_ | a, s'⟩
  · rw [hrun] at hs
    exact hs
  · rw [hrun] at hs
    exact (hnext a s').trans hs

theorem Keeps.mapM {f : α → ExceptT Error (StateM σ) β} {xs : List α}
    (h : ∀ x, Keeps fs (f x)) : Keeps fs (xs.mapM f) := by
  induction xs with
  | nil => exact .pure []
  | cons x xs ih =>
    rw [List.mapM_cons]
    exact (h x).bind fun y => ih.bind fun ys => .pure (y :: ys)

theorem keeps_tell (fs : FileSystem σ) (events : List Log.Event) :
    Keeps fs (ExceptT.lift (Files.tell events)) :=
  fs.disk_tell events

theorem keeps_load (fs : FileSystem σ) (path : String) : Keeps fs (load path) := by
  intro s
  have hread := fs.disk_read path s
  have hrun : (runFrom s (load path : ExceptT Error (StateM σ) Source)).2 =
      ((Files.read path : StateM σ _).run s).2 := by
    simp only [runFrom, load, ExceptT.run_mk, StateT.run_bind]
    rcases (Files.read path : StateM σ _).run s with ⟨_ | _, s'⟩ <;> rfl
  rw [hrun, hread]

/-- All inputs are read and all code is made without a change to any file. -/
theorem keeps_fromFiles (fs : FileSystem σ) (config : Config) (inputs : List String) :
    Keeps fs (fromFiles config inputs) :=
  (keeps_orFail _).bind fun _ => (Keeps.mapM (keeps_load fs)).bind fun _ =>
    (keeps_tell fs _).bind fun _ => keeps_orFail _

/-- Once all inputs are read, the making of the code ends as it does for the sources that were
read. -/
theorem runFrom_fromFiles {config : Config} {inputs : List String} {first : String}
    {sources : List Source} {s s₁ : σ} (hfirst : firstInput inputs = .ok first)
    (hload : runFrom s (inputs.mapM load : ExceptT Error (StateM σ) _) = (.ok sources, s₁)) :
    ∃ s', runFrom s (fromFiles config inputs) = (generate config sources, s') := by
  refine ⟨((Files.tell (events config sources) : StateM σ _).run s₁).2, ?_⟩
  rw [fromFiles, runFrom_bind, runFrom_orFail, hfirst]
  simp only [runFrom_bind, hload]
  rfl

/-! ## Runs -/

/-- A run without code ends as the making of the code did. -/
theorem runFrom_runTo_of_error {config : Config} {inputs : List String} {s s₁ : σ} {e : Error}
    (output : String) (hcode : runFrom s (fromFiles config inputs) = (.error e, s₁)) :
    runFrom s (runTo config inputs output) = (.error e, s₁) := by
  rw [runTo, runFrom_bind, hcode]

/-- A run with code that cannot be written. -/
theorem runFrom_runTo_of_write_error {config : Config} {inputs : List String} {output code : String}
    {s s₁ : σ} {cause : FileError} (hcode : runFrom s (fromFiles config inputs) = (.ok code, s₁))
    (hwrite : fs.write (fs.disk s₁) output code = .error cause) :
    ∃ s', runFrom s (runTo config inputs output) = (.error (.file output cause), s') ∧
      fs.disk s' = fs.disk s₁ := by
  obtain ⟨s', hrun, hdisk⟩ := fs.run_write_of_error output code s₁ cause hwrite
  refine ⟨s', ?_, hdisk⟩
  rw [runTo, runFrom_bind, hcode]
  simp only [runFrom, ExceptT.run_bind, ExceptT.run_mk, StateT.run_bind, hrun]
  rfl

/-- A run with code that is written. -/
theorem runFrom_runTo_of_ok {config : Config} {inputs : List String} {output code : String}
    {s s₁ : σ} {d : fs.Disk} (hcode : runFrom s (fromFiles config inputs) = (.ok code, s₁))
    (hwrite : fs.write (fs.disk s₁) output code = .ok d) :
    ∃ s', runFrom s (runTo config inputs output) = (.ok (), s') ∧ fs.disk s' = d := by
  obtain ⟨s', hrun, hdisk⟩ := fs.run_write_of_ok output code s₁ d hwrite
  refine ⟨_, ?_, (fs.disk_tell [.wrote output] s').trans hdisk⟩
  rw [runTo, runFrom_bind, hcode]
  simp only [runFrom, ExceptT.run_bind, ExceptT.run_mk, StateT.run_bind, hrun]
  rfl

/-- What a run to a file does. It succeeds exactly if there is code and the code can be written, and
then it has written the code and done nothing else. Where it fails, it has done nothing. -/
structure AllOrNothing (fs : FileSystem σ) (config : Config) (inputs : List String)
    (output : String) (s : σ) : Prop where
  ok_iff : (∃ s', runFrom s (runTo config inputs output) = (.ok (), s')) ↔
    ∃ code s₁ d, runFrom s (fromFiles config inputs) = (.ok code, s₁) ∧
      fs.write (fs.disk s) output code = .ok d
  wrote : ∀ s', runFrom s (runTo config inputs output) = (.ok (), s') →
    ∃ code s₁, runFrom s (fromFiles config inputs) = (.ok code, s₁) ∧
      fs.Wrote output code (fs.disk s) (fs.disk s')
  unchanged : ∀ e s', runFrom s (runTo config inputs output) = (.error e, s') →
    fs.disk s' = fs.disk s

/-- How a run ends: without code, with code that cannot be written, or with code that is. -/
theorem runTo_cases (fs : FileSystem σ) (config : Config) (inputs : List String) (output : String)
    (s : σ) :
    (∃ e s', runFrom s (fromFiles config inputs) = (.error e, s') ∧
      runFrom s (runTo config inputs output) = (.error e, s') ∧ fs.disk s' = fs.disk s) ∨
    (∃ code s₁, runFrom s (fromFiles config inputs) = (.ok code, s₁) ∧
      ((∃ cause s', fs.write (fs.disk s) output code = .error cause ∧
        runFrom s (runTo config inputs output) = (.error (.file output cause), s') ∧
        fs.disk s' = fs.disk s) ∨
      ∃ d s', fs.write (fs.disk s) output code = .ok d ∧
        runFrom s (runTo config inputs output) = (.ok (), s') ∧ fs.disk s' = d)) := by
  have hkeeps := keeps_fromFiles fs config inputs s
  rcases hcode : runFrom s (fromFiles config inputs) with ⟨e | code, s₁⟩
  · rw [hcode] at hkeeps
    exact .inl ⟨e, s₁, rfl, runFrom_runTo_of_error output hcode, hkeeps⟩
  · rw [hcode] at hkeeps
    have hdisk : fs.disk s₁ = fs.disk s := hkeeps
    refine .inr ⟨code, s₁, rfl, ?_⟩
    rw [← hdisk]
    cases hwrite : fs.write (fs.disk s₁) output code with
    | error cause =>
      obtain ⟨s', hrun, hsame⟩ := runFrom_runTo_of_write_error hcode hwrite
      exact .inl ⟨cause, s', rfl, hrun, hsame⟩
    | ok d =>
      obtain ⟨s', hrun, hsame⟩ := runFrom_runTo_of_ok hcode hwrite
      exact .inr ⟨d, s', rfl, hrun, hsame⟩

/-- Every run to a file does all or nothing. -/
theorem allOrNothing (fs : FileSystem σ) (config : Config) (inputs : List String) (output : String)
    (s : σ) : AllOrNothing fs config inputs output s := by
  rcases runTo_cases fs config inputs output s with
    ⟨e, s', hcode, hrun, hsame⟩ | ⟨code, s₁, hcode, ⟨cause, s', hwrite, hrun, hsame⟩ |
      ⟨d, s', hwrite, hrun, hsame⟩⟩
  -- There is no code, so there is nothing to write.
  · exact {
      ok_iff := by simp [hcode, hrun]
      wrote := by simp [hrun]
      unchanged := by simp [hrun, hsame] }
  · exact {
      ok_iff := by simp [hcode, hrun, hwrite]
      wrote := by simp [hrun]
      unchanged := by simp [hrun, hsame] }
  · have hwrote := fs.wrote_of_write_eq_ok _ _ _ _ hwrite
    exact {
      ok_iff := by simp [hcode, hrun, hwrite]
      wrote := by simp [hcode, hrun, hsame, hwrote]
      unchanged := by simp [hrun] }

/-- A run without an output path is one to the output path of the first input, and answers that
path. -/
theorem runFrom_run (config : Config) (inputs : List String) (s : σ) :
    runFrom s (run config inputs) =
      match inputs with
      | [] => (.error .noInputs, s)
      | first :: _ =>
        match outputPath first with
        | .error e => (.error e, s)
        | .ok output =>
          match runFrom s (runTo config inputs output) with
          | (.error e, s') => (.error e, s')
          | (.ok _, s') => (.ok output, s') := by
  cases inputs with
  | nil => rfl
  | cons first rest =>
    have hrun : runFrom s (run config (first :: rest)) = runFrom s (orFail (outputPath first) >>=
        fun output => runTo config (first :: rest) output >>= fun _ => pure output) := rfl
    rw [hrun, runFrom_bind, runFrom_orFail]
    cases houtput : outputPath first with
    | error e => simp only [houtput]
    | ok output =>
      simp only [runFrom_bind, houtput]
      rcases runFrom s (runTo config (first :: rest) output) with ⟨_ | _, s'⟩ <;> rfl

/-- A run without an output path that fails leaves all files as they were. -/
theorem disk_of_run_eq_error (fs : FileSystem σ) {config : Config} {inputs : List String} {s s' : σ}
    {e : Error} (h : runFrom s (run config inputs) = (.error e, s')) : fs.disk s' = fs.disk s := by
  rw [runFrom_run] at h
  split at h
  · cases h
    rfl
  · split at h
    · cases h
      rfl
    · rename_i output _
      split at h
      · rename_i hrun
        cases h
        exact (allOrNothing fs config _ output s).unchanged _ _ hrun
      · cases h

end Generation

end ForeignWrap
