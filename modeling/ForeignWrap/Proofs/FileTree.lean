import ForeignWrap.Proofs.Generation.Files
import ForeignWrap.Proofs.Results

/-!
# File trees as file systems

A file tree changes by a write only at the place that the path of the write leads to, and the path
still leads there afterwards. So a tree is a file system.

## Main definitions

* `ForeignWrap.FileTree.Place.node?`: what is at a place.
* `ForeignWrap.FileTree.Workspace.fileSystem`: the file system of work in a tree.
-/

namespace ForeignWrap.FileTree

/-! ## Nodes -/

theorem node?_put {names : List String} (tree : FileTree) (node : FileNode) (hnames : names ≠ []) :
    (tree.put names node).node? names = some node := by
  simp [node?, put, hnames]

theorem node?_put_of_ne {names other : List String} (tree : FileTree) (node : FileNode)
    (hother : other ≠ names) : (tree.put names node).node? other = tree.node? other := by
  have hfind : (tree.put names node).entries.find? (·.1 = other) =
      tree.entries.find? (·.1 = other) := by
    rw [put, List.find?_cons_of_neg (by simpa using hother.symm), List.find?_filter]
    congr 1
    funext entry
    by_cases h : entry.1 = other
    · simp [h, hother]
    · simp [h]
  rw [node?, node?, hfind]

/-- What is at a place. Around the working directory there are only directories. -/
def Place.node? (tree : FileTree) : Place → Option FileNode
  | .inside names => tree.node? names
  | .around => some .directory

/-! ## Paths -/

theorem enter_inside_eq_ok_iff {tree : FileTree} {names : List String} :
    tree.enter (.inside names) = .ok () ↔ tree.node? names = some .directory := by
  simp only [enter]
  rcases tree.node? names with _ | _ | bytes <;> simp

/-- A way through directories leads past all places that are none. -/
theorem locateFrom_put {tree : FileTree} {names : List String} (bytes : List Nat)
    (hnames : tree.node? names ≠ some .directory) {place last : Place} {pieces : List String}
    (h : tree.locateFrom place pieces = .ok last) :
    (tree.put names (.file bytes)).locateFrom place pieces = .ok last := by
  induction pieces generalizing place with
  | nil => exact h
  | cons piece rest ih =>
    obtain ⟨⟨⟩, henter, h⟩ := bind_eq_ok_iff.1 h
    have henter' : (tree.put names (.file bytes)).enter place = .ok () := by
      cases place with
      | around => rfl
      | inside through =>
        rw [enter_inside_eq_ok_iff] at henter ⊢
        have hne : through ≠ names := fun h => hnames (h ▸ henter)
        rw [node?_put_of_ne tree _ hne, henter]
    rw [locateFrom, henter']
    cases hstep : place.step piece with
    | none => simp [hstep] at h
    | some next =>
      rw [hstep] at h
      exact ih h

theorem locate_put {tree : FileTree} {names : List String} (bytes : List Nat)
    (hnames : tree.node? names ≠ some .directory) {path : String} {place : Place}
    (h : tree.locate path = .ok place) :
    (tree.put names (.file bytes)).locate path = .ok place := by
  unfold locate at h ⊢
  by_cases hpath : path = ""
  · rw [if_pos hpath] at h
    cases h
  · rw [if_neg hpath] at h ⊢
    exact locateFrom_put bytes hnames h

/-! ## Files -/

/-- A write puts a file where its path leads, and no directory was there. -/
theorem exists_of_write_eq_ok {tree tree' : FileTree} {path text : String}
    (h : tree.write path text = .ok tree') :
    ∃ names, tree.locate path = .ok (.inside names) ∧ tree.node? names ≠ some .directory ∧
      tree' = tree.put names (.file (Text.encodeUtf8 text)) := by
  obtain ⟨place, hplace, h⟩ := bind_eq_ok_iff.1 h
  cases place with
  | around => cases h
  | inside names =>
    by_cases hbad : (decide (withoutSlashes path ≠ path) ||
        decide (tree.node? names = some .directory)) = true
    · simp only [hbad, if_true] at h
      cases h
    · obtain ⟨hslashes, hnode⟩ : withoutSlashes path = path ∧
          tree.node? names ≠ some .directory := by
        simpa using hbad
      simp only [hbad] at h
      cases h
      refine ⟨names, ?_, hnode, rfl⟩
      rw [hslashes] at hplace
      simpa using hplace

/-- What files there are in a tree. -/
def storage : Storage where
  Disk := FileTree
  Place := Place
  locate := locate
  node? tree := Place.node? tree

/-- A write changes a tree only at the place that its path leads to. -/
theorem wrote_of_write_eq_ok {tree tree' : FileTree} {path text : String}
    (h : tree.write path text = .ok tree') : storage.Wrote path text tree tree' := by
  obtain ⟨names, hlocate, hnode, rfl⟩ := exists_of_write_eq_ok h
  refine ⟨.inside names, locate_put _ hnode hlocate, ?_, ?_⟩
  · have hnames : names ≠ [] := by
      rintro rfl
      exact hnode rfl
    exact node?_put tree _ hnames
  · intro other hother
    cases other with
    | around => rfl
    | inside others => exact node?_put_of_ne tree _ fun h => hother (h ▸ rfl)

/-! ## Work in a tree -/

theorem run_write (path text : String) (w : Workspace) :
    (Files.write path text : Work _).run w =
      match w.tree.write path text with
      | .ok tree => (.ok (), { w with tree })
      | .error cause => (.error cause, w) := by
  simp only [Files.write, StateT.run_bind, StateT.run_get, pure_bind]
  cases w.tree.write path text <;> rfl

/-- A file that can be read is loaded as the source that it is. -/
theorem runFrom_load {w : Workspace} {path text : String} (h : w.tree.read path = .ok text) :
    Generation.runFrom w (Generation.load path) = (.ok ⟨path, text⟩, w) := by
  have hread : (Files.read path : Work _).run w = (.ok text, w) := by
    simp only [← h]
    rfl
  simp only [Generation.runFrom, Generation.load, ExceptT.run_mk, StateT.run_bind, hread]
  rfl

/-- The code for one file that can be read is made as for the source that it is. -/
theorem runFrom_fromFiles (config : Config) {w : Workspace} {path text : String}
    (hfirst : Generation.firstInput [path] = .ok path) (hread : w.tree.read path = .ok text) :
    ∃ w', Generation.runFrom w (Generation.fromFiles config [path]) =
      (Generation.generate config [⟨path, text⟩], w') := by
  have hload : Generation.runFrom w ([path].mapM Generation.load : ExceptT _ Work _) =
      (.ok [⟨path, text⟩], w) := by
    simp only [List.mapM_cons, List.mapM_nil, Generation.runFrom_bind, runFrom_load hread,
      Generation.runFrom_pure]
  exact Generation.runFrom_fromFiles hfirst hload

/-- The file system of work in a tree. -/
def Workspace.fileSystem : FileSystem Workspace where
  toStorage := storage
  disk := Workspace.tree
  write := write
  disk_read _ _ := rfl
  disk_tell _ _ := rfl
  run_write_of_ok path text w tree h := ⟨{ w with tree }, by rw [run_write, h], rfl⟩
  run_write_of_error path text w cause h := ⟨w, by rw [run_write, h], rfl⟩
  wrote_of_write_eq_ok _ _ _ _ h := wrote_of_write_eq_ok h

@[simp] theorem Workspace.disk_fileSystem (w : Workspace) : Workspace.fileSystem.disk w = w.tree :=
  rfl

end ForeignWrap.FileTree
