/-!
# Kinds of sorts

The solver numbers the kinds of its sorts.

## Main definitions

* `ForeignWrap.Solver.SortKind`: the kinds that have a number.
* `ForeignWrap.Solver.SortKind.ofCode`: the kind of a number.
-/

namespace ForeignWrap.Solver

/-- The kinds of sorts, in the order of their numbers, and one for all other numbers. -/
inductive SortKind where
  | uninterpreted
  | bool
  | int
  | real
  | bitVector
  | array
  | datatype
  | relation
  | finiteDomain
  | floatingPoint
  | roundingMode
  | sequence
  | regex
  | char
  | typeVar
  | unknown
deriving DecidableEq, Repr

namespace SortKind

/-- The kinds that have a number, in the order of their numbers. -/
def numbered : List SortKind :=
  [.uninterpreted, .bool, .int, .real, .bitVector, .array, .datatype, .relation, .finiteDomain,
    .floatingPoint, .roundingMode, .sequence, .regex, .char, .typeVar]

/-- The kind of a number. -/
def ofCode (code : Nat) : SortKind :=
  numbered[code]?.getD .unknown

/-- The name of a kind. -/
def name : SortKind → String
  | .uninterpreted => "Uninterpreted"
  | .bool => "Bool"
  | .int => "Int"
  | .real => "Real"
  | .bitVector => "BitVector"
  | .array => "Array"
  | .datatype => "Datatype"
  | .relation => "Relation"
  | .finiteDomain => "FiniteDomain"
  | .floatingPoint => "FloatingPoint"
  | .roundingMode => "RoundingMode"
  | .sequence => "Seq"
  | .regex => "Re"
  | .char => "Char"
  | .typeVar => "TypeVar"
  | .unknown => "Unknown"

end SortKind

end ForeignWrap.Solver
