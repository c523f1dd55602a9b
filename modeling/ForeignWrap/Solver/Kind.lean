/-!
# Kinds of values

A result of the solver becomes a value of a type of its own kind. A table says how, for the kinds
that have one.

## Main definitions

* `ForeignWrap.Solver.Kind`: the kinds of values.
* `ForeignWrap.Solver.KindTable`: what is registered for each kind.
* `ForeignWrap.Solver.builtinKinds`: the kinds that are registered from the start.
-/

namespace ForeignWrap.Solver

/-- The kinds of values. -/
inductive Kind where
  | unknown
  | bool
  | int
  | string
  | sequence
deriving DecidableEq, Repr

/-- The name of a kind. -/
def Kind.name : Kind → String
  | .unknown => "Unknown"
  | .bool => "Bool"
  | .int => "Int"
  | .string => "String"
  | .sequence => "Sequence"

/-- The kind of a name. -/
def Kind.ofName? (name : String) : Option Kind :=
  [Kind.unknown, .bool, .int, .string, .sequence].find? (·.name = name)

/-- What is registered for each kind. Of two entries for one kind the first counts. -/
structure KindTable (α : Type) where
  entries : List (Kind × α) := []

namespace KindTable

variable {α : Type}

/-- What is registered for a kind. -/
def get? (table : KindTable α) (kind : Kind) : Option α :=
  (table.entries.find? (·.1 = kind)).map (·.2)

/-- A table with something registered for a kind, in place of what was there. -/
def register (table : KindTable α) (kind : Kind) (value : α) : KindTable α :=
  ⟨(kind, value) :: table.entries⟩

@[simp] theorem get?_register_self (table : KindTable α) (kind : Kind) (value : α) :
    (table.register kind value).get? kind = some value := by
  simp [register, get?]

theorem get?_register_of_ne {table : KindTable α} {kind other : Kind} {value : α}
    (h : kind ≠ other) : (table.register kind value).get? other = table.get? other := by
  simp [register, get?, h]

end KindTable

/-- The kinds that are registered from the start: all that are known. -/
def builtinKinds : KindTable Unit :=
  [Kind.bool, .int, .string, .sequence].foldl (fun table kind => table.register kind ()) {}

end ForeignWrap.Solver
