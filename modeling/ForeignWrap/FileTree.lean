import ForeignWrap.Generation.Files
import ForeignWrap.Text.Utf8

/-!
# File trees

A file tree is a file system as a value: directories and files with their bytes, below a working
directory. A path leads through directories that are there; only its last name may be new, and that
only where a file is written.

## Main definitions

* `ForeignWrap.FileTree`: what is at each place.
* `ForeignWrap.FileTree.locate`: the place that a path leads to.
* `ForeignWrap.FileTree.read`, `ForeignWrap.FileTree.write`: the text of a file.
* `ForeignWrap.FileTree.Work`: programs that read and write in a file tree.
-/

namespace ForeignWrap

/-- What is at a place. -/
inductive FileNode where
  | directory
  | file (bytes : List Nat)
deriving DecidableEq, Repr

/-- What is at each place below the working directory. A place is the list of names that lead to it;
of two entries for one place the first counts. -/
structure FileTree where
  entries : List (List String × FileNode) := []
deriving DecidableEq, Repr

namespace FileTree

/-- Where a path leads. -/
inductive Place where
  /-- Below the working directory. -/
  | inside (names : List String)
  /-- To a directory around the working directory. Nothing else is known there. -/
  | around
deriving DecidableEq, Repr

/-! ## Nodes -/

/-- What is at a place below the working directory. -/
def node? (tree : FileTree) (names : List String) : Option FileNode :=
  if names = [] then some .directory
  else (tree.entries.find? (·.1 = names)).map (·.2)

/-- A tree with something put at a place. -/
def put (tree : FileTree) (names : List String) (node : FileNode) : FileTree :=
  ⟨(names, node) :: tree.entries.filter (·.1 ≠ names)⟩

/-- A tree with nothing at a place or below it. -/
def erase (tree : FileTree) (names : List String) : FileTree :=
  ⟨tree.entries.filter (!names.isPrefixOf ·.1)⟩

/-! ## Paths -/

/-- The place one piece of a path further on. -/
def Place.step (place : Place) (piece : String) : Option Place :=
  match place, piece with
  | place, "" | place, "." => some place
  | .inside [], ".." | .around, ".." => some .around
  | .inside names, ".." => some (.inside names.dropLast)
  | .inside names, name => some (.inside (names ++ [name]))
  | .around, _ => none

/-- Whether something is a directory, so that a path leads on from it. -/
def enter (tree : FileTree) : Place → Except FileError Unit
  | .around => .ok ()
  | .inside names =>
    match tree.node? names with
    | none => .error .noSuchFile
    | some .directory => .ok ()
    | some (.file _) => .error .notDirectory

/-- The place that the pieces of a path lead to from a place. -/
def locateFrom (tree : FileTree) (place : Place) : List String → Except FileError Place
  | [] => .ok place
  | piece :: rest => do
    tree.enter place
    match place.step piece with
    | some next => locateFrom tree next rest
    | none => .error .noSuchFile

/-- The place that a path leads to. All that it leads through has to be there. -/
def locate (tree : FileTree) (path : String) : Except FileError Place :=
  if path = "" then .error .noSuchFile
  else
    let pieces := FilePath.pieces path
    tree.locateFrom (if pieces.head? = some "" then .around else .inside []) pieces

/-! ## Files -/

/-- The bytes of a file. -/
def readBytes (tree : FileTree) (path : String) : Except FileError (List Nat) := do
  match ← tree.locate path with
  | .around => throw .isDirectory
  | .inside names =>
    match tree.node? names with
    | none => throw .noSuchFile
    | some .directory => throw .isDirectory
    | some (.file bytes) => return bytes

/-- The text of a file. -/
def read (tree : FileTree) (path : String) : Except FileError String := do
  (Text.decodeUtf8 (← tree.readBytes path)).mapError fun _ => .notText

/-- A path without the slashes at its end. -/
def withoutSlashes (path : String) : String :=
  String.ofList (path.toList.reverse.dropWhile (· == '/')).reverse

/-- A tree with a file written, in place of the one that is there if there is one. A path that ends
in a slash is that of a directory, whether it is there or not. -/
def writeBytes (tree : FileTree) (path : String) (bytes : List Nat) :
    Except FileError FileTree := do
  let trimmed := withoutSlashes path
  match ← tree.locate (if trimmed = "" then path else trimmed) with
  | .around => throw .isDirectory
  | .inside names =>
    if trimmed ≠ path || tree.node? names = some .directory then throw .isDirectory
    return tree.put names (.file bytes)

/-- A tree with a text written as a file. -/
def write (tree : FileTree) (path text : String) : Except FileError FileTree :=
  tree.writeBytes path (Text.encodeUtf8 text)

/-! ## Directories -/

/-- The place that pieces of a path say, whether something is there or not. -/
def placeFrom (place : Place) : List String → Place
  | [] => place
  | piece :: rest => placeFrom ((place.step piece).getD place) rest

/-- The names that a path says, whether something is there or not. -/
def namesOf (path : String) : List String :=
  match placeFrom (.inside []) (FilePath.pieces path) with
  | .inside names => names
  | .around => []

/-- A tree in which the places that the names of `below` lead to from `place` are directories,
unless something else is there. -/
def makeDirectoriesFrom (tree : FileTree) (place : List String) : (below : List String) → FileTree
  | [] => tree
  | name :: rest =>
    let next := place ++ [name]
    let tree := if (tree.node? next).isSome then tree else tree.put next .directory
    makeDirectoriesFrom tree next rest

/-- A tree in which a place and all that leads to it are directories. -/
def makeDirectories (tree : FileTree) (names : List String) : FileTree :=
  tree.makeDirectoriesFrom [] names

/-- The places of all files. -/
def files (tree : FileTree) : List (List String) :=
  tree.entries.filterMap fun
    | (names, .file _) => some names
    | (_, .directory) => none

/-! ## Working in a tree -/

/-- A file tree and what has been told. -/
structure Workspace where
  tree : FileTree := {}
  told : List Log.Event := []

/-- Work in a file tree. -/
abbrev Work := StateM Workspace

instance : Files Work where
  read path := return (← get).tree.read path
  write path text := do
    match (← get).tree.write path text with
    | .ok tree =>
      modify ({ · with tree })
      return .ok ()
    | .error cause => return .error cause
  tell events := modify fun w => { w with told := w.told ++ events }

end FileTree

end ForeignWrap
