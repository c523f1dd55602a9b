import ForeignWrap.Syntax.Parser

/-!
# Paths of names

A path of names alone says which macro is used or which attribute is given. Some keywords may stand
for its names.

## Main definitions

* `ForeignWrap.Syntax.namePath`: a path of names alone.
* `ForeignWrap.Syntax.Tree.names?`: the names of a path without arguments.
* `ForeignWrap.Syntax.macroCall`: a use of a macro, after its path.
-/

namespace ForeignWrap.Syntax

open Code (Delimiter Token)
open Syntax.Parser

/-- Whether a name, or a keyword that may stand in its place in a path, comes first. -/
def atPathName (tokens : List Token) : Bool :=
  atName tokens || atWord "super" tokens || atWord "self" tokens || atWord "Self" tokens ||
    atWord "crate" tokens

/-- A path of names alone. -/
def namePath : Parser NamePath := do
  let rooted ← op? "::"
  if !atPathName (← ahead) then
    let _ ← name
  let first ← anyWord
  let more ← collect do
    if !(← op? "::") then return none
    if atPathName (← ahead) then return some (← anyWord)
    expected ["path segment after " ++ code "::"]
  return ⟨rooted, first :: more⟩

/-- The names of a path, if none of its parts has arguments. -/
def Tree.names? : Tree .path → Option NamePath
  | .path .absent _ rooted segments => do
    let names ← segments.toList.mapM fun
      | .segment name => some name
      | _ => none
    return ⟨rooted, names⟩
  | _ => none

/-- Whether a macro is called here: an exclamation mark that does not begin `!=`. -/
def atBang (tokens : List Token) : Bool :=
  atOp "!" tokens && !atOp "!=" tokens

/-- The rest of a use of a macro, from its exclamation mark. -/
def macroCall (path : NamePath) : Parser MacroCall := do
  op "!"
  let (delimiter, content) ← anyGroup
  return ⟨path, delimiter, content⟩

/-- Whether code comes next that is left to the implementation: `builtin` and a number sign. -/
def atBuiltin (tokens : List Token) : Bool :=
  atWord "builtin" tokens && atOp "#" (skip tokens)

/-- Code that is left to the implementation, with arguments that are any code. -/
def builtin : Parser Unit := do
  keyword "builtin"
  op "#"
  let _ ← name
  if !atGroup .parenthesis (← ahead) then expected [groupName .parenthesis]
  let _ ← anyGroup

end ForeignWrap.Syntax
