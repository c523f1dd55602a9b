import ForeignWrap.Method.Wrap

/-!
# Methods for equality

Each default type has two methods of its own, whatever the directives ask for: one that says that
two values are equal, and one that says that they are not.

## Main definitions

* `ForeignWrap.Method.equal`, `ForeignWrap.Method.notEqual`: the two methods.
* `ForeignWrap.Method.equality`: both, in order.
-/

namespace ForeignWrap.Method

open Directive (Error)
open Call (typeAs)

/-- The directive line that asks for the method that says that two values are equal. -/
def equalLine (config : Config) : String :=
  directiveKeyword ++ " eq:" ++ config.boolType ++ " Z3_mk_eq l r"

/-- The comment line above it. -/
def equalDoc : String :=
  "// eq returns an expression that is true if l and r are equal."

/-- The method that says that two values of the default type are equal. -/
def equal (config : Config) : Except Error Method :=
  ofLine config (equalLine config) (Doc.ofLines [equalDoc] none)

/-- The method that says that two values of the default type are not equal. -/
def notEqual (config : Config) : Except Error Method := do
  let selfType ← typeAs .defaultType config.defaultType
  let boolType ← typeAs .boolType config.boolType
  let exprType ← typeAs .exprType config.exprType
  return {
    selfType := selfType.tokens
    docs := [.verbatim " ne returns an expression that is true if l and r are not equal."]
    name := "ne"
    params := [⟨"r", selfType.tokens, .byReference⟩]
    result := boolType.tokens
    body := .distinct exprType.tokens "r" }

/-- The methods for equality of the default type. -/
def equality (config : Config) : Except Error (List Method) := do
  return [← equal config, ← notEqual config]

end ForeignWrap.Method
