import ForeignWrap.Generation.Error
import ForeignWrap.Layout.File
import ForeignWrap.Log.Basic
import ForeignWrap.Method.Code
import ForeignWrap.Method.Equality
import ForeignWrap.Source

/-!
# Generation

The wrappers of some sources are one file: the library and the names that every method needs, the
methods for equality of the default type, and one method for each directive, in the order of the
sources. Nothing is generated if anything fails.

## Main definitions

* `ForeignWrap.Generation.format`: tokens as the text of a file, below its header.
* `ForeignWrap.Generation.unit`: the tokens of the file.
* `ForeignWrap.Generation.generate`: the text of the file.
* `ForeignWrap.Generation.events`: what is told while it is generated.
-/

namespace ForeignWrap.Generation

open Code (Token op word brackets braces)

/-! ## Files -/

/-- Tokens as the text of a file, below its header. -/
def format (tokens : List Token) : Except Error String :=
  match Syntax.fileOf tokens with
  | .error cause => .error (.format (Code.text tokens) cause)
  | .ok file =>
    match Layout.fileText file with
    | .error cause => .error (.layout cause)
    | .ok text => .ok (generatedHeader ++ "\n\n" ++ text)

/-! ## The prologue -/

/-- Where errors are that no line of a source has. -/
def configLocation : String :=
  "<config>"

/-- Tells where an error is. -/
def located {α : Type} (location : String) (result : Except Directive.Error α) : Except Error α :=
  result.mapError (.directive location)

/-- An attribute that holds some code. -/
def attributeCode (content : List Token) : List Token :=
  op "#" ++ brackets content

/-- The import of all that a path holds, which need not be used. -/
def importAll (path : List Token) : List Token :=
  attributeCode (word "allow" ++ Code.parens (word "unused_imports")) ++
    word "use" ++ path ++ op "::" ++ op "*" ++ op ";"

/-- The tokens of a path of the configuration. -/
def configPath (path : String) : Except Directive.Error (List Token) :=
  (Directive.readPart .path path (Syntax.pathOf path)).map (·.tokens)

/-- What every file begins with: the library that is linked, and the imports of all methods. -/
def prologue (config : Config) : Except Directive.Error (List Token) := do
  let runtime ← configPath config.runtimePath
  let sys ← configPath config.sysPath
  let name := [.literal (Text.stringLiteral config.linkName)]
  let link := attributeCode (word "link" ++ Code.parens (word "name" ++ op "=" ++ name))
  let foreign := word "unsafe" ++ word "extern" ++ [.literal "\"C\""] ++ braces []
  return link ++ foreign ++ importAll (runtime ++ op "::" ++ word "prelude") ++ importAll sys

/-- What the configuration alone gives: the prologue and the methods for equality. -/
def preamble (config : Config) : Except Error (List Token) :=
  located configLocation do
    let start ← prologue config
    let methods ← Method.equality config
    return start ++ methods.flatMap (·.code)

/-! ## Methods of directives -/

/-- The method that a directive line asks for. -/
def methodOf (config : Config) (request : Request) : Except Directive.Error Method :=
  Method.ofLine config request.line (Doc.ofLines request.docs (some request.label))

/-- The method that a directive line asks for, with errors told by its place. -/
def locatedMethod (config : Config) (request : Request) : Except Error Method :=
  located request.label (methodOf config request)

/-- The directive lines of sources, in order. -/
def requestsOf (sources : List Source) : List Request :=
  sources.flatMap (·.requests)

/-! ## Units -/

/-- The tokens of the file for some sources. -/
def unit (config : Config) (sources : List Source) : Except Error (List Token) := do
  if sources.isEmpty then throw .noInputs
  let start ← preamble config
  let methods ← (requestsOf sources).mapM (locatedMethod config)
  return start ++ methods.flatMap (·.code)

/-- The text of the file for some sources. -/
def generate (config : Config) (sources : List Source) : Except Error String := do
  format (← unit config sources)

/-! ## Events -/

/-- The requests that are tried: all up to the first that fails. -/
def tried (config : Config) : List Request → List Request
  | [] => []
  | request :: rest =>
    request ::
      match methodOf config request with
      | .ok _ => tried config rest
      | .error _ => []

/-- What is told while the file for some sources is generated. -/
def events (config : Config) (sources : List Source) : List Log.Event :=
  match sources.isEmpty, preamble config with
  | false, .ok _ =>
    let requests := requestsOf sources
    (tried config requests).map (.directive ·.label) ++
      match unit config sources with
      | .ok _ => [.assembled requests.length sources.length]
      | .error _ => []
  | _, _ => []

end ForeignWrap.Generation
