import ForeignWrap.Directive.Error
import ForeignWrap.Layout.Draft

/-!
# Generation errors

Why nothing was generated: an input is missing or no declaration file, a file cannot be read or
written, a directive has no method, or the methods together are no code or have no layout.

## Main definitions

* `ForeignWrap.FileError`: what a file system says when it fails.
* `ForeignWrap.Generation.Error`: the causes.
* `ForeignWrap.Generation.Error.message`: their wording.
-/

namespace ForeignWrap

/-- What a file system says when it fails. -/
inductive FileError where
  | noSuchFile
  | isDirectory
  | notDirectory
  /-- The file is there, but is no text. -/
  | notText
  /-- Any other failure, in the words of the system. -/
  | other (message : String)
deriving DecidableEq, Repr

/-- The wording of a failure. -/
def FileError.message : FileError → String
  | .noSuchFile => "No such file or directory (os error 2)"
  | .isDirectory => "Is a directory (os error 21)"
  | .notDirectory => "Not a directory (os error 20)"
  | .notText => "stream did not contain valid UTF-8"
  | .other message => message

namespace Generation

/-- Why nothing was generated. -/
inductive Error where
  /-- The first input is no declaration file by its name. -/
  | notRustFile (path : String)
  | noInputs
  | file (path : String) (cause : FileError)
  /-- A directive, or the configuration, has no method. -/
  | directive (location : String) (cause : Directive.Error)
  /-- The methods together are no code. They are kept as they are. -/
  | format (raw : String) (cause : Syntax.SyntaxError)
  /-- The methods are code, but some of it has no layout. -/
  | layout (cause : Layout.Unwritable)
deriving DecidableEq, Repr

/-- The wording of an error. -/
def Error.message : Error → String
  | .notRustFile path => "not a .rs file: " ++ path
  | .noInputs => "no input files"
  | .file path cause => path ++ ": " ++ cause.message
  | .directive location cause => location ++ ": " ++ cause.message
  | .format _ cause => "generated code does not parse: " ++ cause.message
  | .layout cause => cause.message

/-- The code that could not be formatted, if that is why. -/
def Error.rawCode? : Error → Option String
  | .format raw _ => some raw
  | _ => none

end Generation

end ForeignWrap
