import ForeignWrap.Config
import ForeignWrap.Syntax.Error
import ForeignWrap.Text.Quoted

/-!
# Directive errors

Why a directive line has no method. A message shows the text at fault between quotes.

## Main definitions

* `ForeignWrap.Directive.Error`: the causes.
* `ForeignWrap.Directive.Error.message`: their wording.
-/

namespace ForeignWrap.Directive

open Text (quote)

/-- What a text was to be, where code was asked for. -/
inductive Part where
  | identifier
  | foreignType
  | receiverType
  | resultType
  | argumentType
  | handleType
  | defaultType
  | boolType
  | exprType
  | literalCode
  | path
deriving DecidableEq, Repr

/-- A part in words. -/
def Part.name : Part → String
  | .identifier => "identifier"
  | .foreignType => "foreign type"
  | .receiverType => "receiver type"
  | .resultType => "result type"
  | .argumentType => "argument type"
  | .handleType => "handle type"
  | .defaultType => "default type"
  | .boolType => "bool type"
  | .exprType => "expression type"
  | .literalCode => "literal code"
  | .path => "path"

/-- Why a directive line has no method. -/
inductive Error where
  /-- The line does not begin with the keyword. -/
  | missingKeyword
  | missingName
  | missingForeignFunction
  /-- There is no host argument, so nothing has the method. -/
  | noReceiver
  | repeatedSeparator
  /-- Code, its quotes included, stands among the host arguments. -/
  | literalInHostList (literal : String)
  /-- The foreign function is given an argument that the host list lacks. -/
  | unknownArgument (name : String)
  | duplicateArgument (name : String)
  /-- A variadic marker does not stand exactly where a variadic argument is. -/
  | misplacedVariadic (name : String)
  /-- The variadic argument is not what the foreign function is given last. -/
  | variadicNotLast (name : String)
  /-- No token begins at this byte of the line. -/
  | unterminatedLiteral (start : Nat)
  /-- A name or a type beside a colon is empty. -/
  | emptyComponent (text : String)
  /-- A text is not the code that it was to be. -/
  | invalidCode (what : Part) (text : String) (reason : Syntax.SyntaxError)
deriving DecidableEq, Repr

/-- The wording of an error. -/
def Error.message : Error → String
  | .missingKeyword => "expected directive keyword " ++ Syntax.code directiveKeyword
  | .missingName => "missing method name"
  | .missingForeignFunction => "missing foreign function name"
  | .noReceiver => "directive declares no receiver argument"
  | .repeatedSeparator => "more than one " ++ Syntax.code ":" ++ " separator"
  | .literalInHostList literal =>
    "literal code " ++ quote literal ++ " is only allowed in the foreign argument list"
  | .unknownArgument name => "reference to unknown argument " ++ quote name
  | .duplicateArgument name => "argument " ++ quote name ++ " declared twice"
  | .misplacedVariadic name =>
    "variadic marker on " ++ quote name ++ " is only allowed on the last argument"
  | .variadicNotLast name =>
    "variadic argument " ++ quote name ++ " must be the last foreign argument"
  | .unterminatedLiteral start => "unterminated literal starting at column " ++ toString start
  | .emptyComponent text => "empty name or type in " ++ quote text
  | .invalidCode what text reason =>
    what.name ++ " " ++ quote text ++ " is not valid Rust: " ++ reason.message

/-- The reading of a part, whose errors name the part and its text. -/
def readPart {α : Type} (what : Part) (text : String) (read : Except Syntax.SyntaxError α) :
    Except Error α :=
  read.mapError (.invalidCode what text)

end ForeignWrap.Directive
