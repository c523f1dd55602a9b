import ForeignWrap.Text.Cut

/-!
# Paths

A path is a text of names between slashes. A slash, or a slash and a dot, at its end adds nothing to
the name before it. The extension of a name is what follows its last dot, unless nothing stands
before that dot.

## Main definitions

* `ForeignWrap.FilePath.fileName?`: the name at the end of a path.
* `ForeignWrap.FilePath.splitExtension?`: a name in two, at the dot before its extension.
* `ForeignWrap.FilePath.withExtension`: a path with another extension.
* `ForeignWrap.FilePath.output?`: where the wrappers of a declaration file are written.
* `ForeignWrap.FilePath.pieces`: the names of a path.
-/

namespace ForeignWrap.FilePath

/-! ## The end of a path -/

/-- The characters of a path, the last one first, without the slashes and dots that add nothing. -/
def dropIdleEnd : List Char → List Char
  | '/' :: before => dropIdleEnd before
  | '.' :: '/' :: before => dropIdleEnd ('/' :: before)
  | before => before

/-- The characters of a path before and in its last name. -/
def splitName (path : List Char) : List Char × List Char :=
  let reversed := dropIdleEnd path.reverse
  ((reversed.dropWhile (· != '/')).reverse, (reversed.takeWhile (· != '/')).reverse)

/-- Whether a name is that of a file: not the directory itself nor the one around it. -/
def isFileName (name : List Char) : Bool :=
  name != [] && name != ['.'] && name != ['.', '.']

/-- The name at the end of a path, if it is that of a file. -/
def fileName? (path : List Char) : Option (List Char) :=
  let name := (splitName path).2
  if isFileName name then some name else none

/-! ## Extensions -/

/-- A name in two: what stands before its last dot, and the extension after that. -/
def splitExtension? (name : List Char) : Option (List Char × List Char) :=
  match Text.cutCharsAt? '.' name.reverse with
  | some (_, []) | none => none
  | some (extension, stem) => some (stem.reverse, extension.reverse)

/-- A name without its extension. -/
def stem (name : List Char) : List Char :=
  ((splitExtension? name).map (·.1)).getD name

/-- The extension of the name at the end of a path. -/
def extension? (path : List Char) : Option (List Char) := do
  let name ← fileName? path
  return (← splitExtension? name).2

/-- A path whose last name has the extension put in place of its own, or added to it. A path that
does not end in the name of a file stays as it is. -/
def setExtension (path extension : List Char) : List Char :=
  let (before, name) := splitName path
  if isFileName name then before ++ stem name ++ '.' :: extension else path

/-- A path with another extension. As many characters as the old extension has are first taken off
the end, so what is left may end in something other than the name of a file: then nothing is
added. -/
def withExtension (path extension : List Char) : List Char :=
  let old := (extension? path).getD []
  setExtension (path.take (path.length - old.length)) extension

/-! ## Declaration files -/

/-- Whether a path is that of a declaration file, by its name. -/
def isDeclarationFile (path : List Char) : Bool :=
  extension? path == some "rs".toList

/-- Where the wrappers of a declaration file are written, unless told otherwise. -/
def output? (path : String) : Option String :=
  let path := path.toList
  if isDeclarationFile path then some (String.ofList (withExtension path "wrap.rs".toList))
  else none

/-! ## Parts of a path -/

/-- The pieces of a path between its slashes. -/
def piecesOf : List Char → List (List Char)
  | [] => [[]]
  | '/' :: rest => [] :: piecesOf rest
  | c :: rest =>
    match piecesOf rest with
    | [] => [[c]]
    | piece :: others => (c :: piece) :: others

/-- The pieces of a path between its slashes. -/
def pieces (path : String) : List String :=
  (piecesOf path.toList).map String.ofList

/-- A path inside a directory. -/
def join (directory path : String) : String :=
  if directory = "" || Text.dropEnd? "/" directory != none then directory ++ path
  else directory ++ "/" ++ path

end ForeignWrap.FilePath
