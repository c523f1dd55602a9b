import ForeignWrap.Text.Blank
import ForeignWrap.Text.Cut

/-!
# Configuration

The names of the object model that the methods are written for. A type is classified by its text as
it was written, at most without one reference before it.

## Main definitions

* `ForeignWrap.Config`: the names, with their defaults.
* `ForeignWrap.Config.isExpr`, `ForeignWrap.Config.isContext`, `ForeignWrap.isPrimitive`: the
  classes of types that methods treat in a way of their own.
-/

namespace ForeignWrap

/-- The word that begins a directive. -/
def directiveKeyword : String :=
  "//wrap:expr"

/-- The line above everything that is generated. -/
def generatedHeader : String :=
  "// Generated by genwrap. DO NOT EDIT."

/-- The names of the object model that the methods are written for. -/
structure Config where
  /-- The type of a result or an argument that names none. -/
  defaultType : String := "Expr"
  /-- The type of an expression of any kind, which is known only when the program runs. -/
  exprType : String := "Expr"
  /-- The type of the context that foreign functions work in. -/
  contextType : String := "Context"
  /-- The type that a comparison results in. -/
  boolType : String := "Bool"
  /-- The type of a foreign value, of which a variadic call takes an array. -/
  handleType : String := "Z3_ast"
  /-- Where the library that the methods call is found. -/
  runtimePath : String := "crate"
  /-- Where the foreign functions are found. -/
  sysPath : String := "z3wrap_sys"
  /-- The native library that holds the foreign functions. -/
  linkName : String := "z3"
deriving DecidableEq, Repr

/-- A type without one reference before it, and without the white space after that. -/
def withoutReference (type : String) : String :=
  match Text.dropStart? "&" type with
  | some referred => Text.trimStart referred
  | none => type

/-- The types that are passed by value and need no keeping alive. -/
def primitiveTypes : List String :=
  ["bool", "char", "f32", "f64", "i8", "i16", "i32", "i64", "i128", "isize", "u8", "u16", "u32",
    "u64", "u128", "usize"]

/-- Whether a type is one of plain values. A reference is not. -/
def isPrimitive (type : String) : Bool :=
  primitiveTypes.contains type

namespace Config

/-- Whether a type, or what it refers to, is that of expressions of any kind. -/
def isExpr (config : Config) (type : String) : Bool :=
  withoutReference type == config.exprType

/-- Whether a type, or what it refers to, is that of contexts. -/
def isContext (config : Config) (type : String) : Bool :=
  withoutReference type == config.contextType

end Config

end ForeignWrap
