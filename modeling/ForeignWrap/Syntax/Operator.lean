import ForeignWrap.Syntax.Parser

/-!
# Operators between expressions

## Main definitions

* `ForeignWrap.Syntax.BinaryOp.text`: how an operator is written.
* `ForeignWrap.Syntax.BinaryOp.precedence`: how tightly it binds.
* `ForeignWrap.Syntax.binaryOp?`: the operator that comes next.
* `ForeignWrap.Syntax.nextPrecedence`: how tightly whatever comes next binds.
-/

namespace ForeignWrap.Syntax

open Code (Token)

/-- How an operator is written. -/
def BinaryOp.text : BinaryOp → String
  | .add => "+"
  | .sub => "-"
  | .mul => "*"
  | .div => "/"
  | .rem => "%"
  | .and => "&&"
  | .or => "||"
  | .bitXor => "^"
  | .bitAnd => "&"
  | .bitOr => "|"
  | .shl => "<<"
  | .shr => ">>"
  | .eq => "=="
  | .lt => "<"
  | .le => "<="
  | .ne => "!="
  | .ge => ">="
  | .gt => ">"
  | .addAssign => "+="
  | .subAssign => "-="
  | .mulAssign => "*="
  | .divAssign => "/="
  | .remAssign => "%="
  | .bitXorAssign => "^="
  | .bitAndAssign => "&="
  | .bitOrAssign => "|="
  | .shlAssign => "<<="
  | .shrAssign => ">>="

/-- How an operator before an expression is written. -/
def UnaryOp.text : UnaryOp → String
  | .deref => "*"
  | .not => "!"
  | .neg => "-"

/-- How tightly an operator binds. -/
def BinaryOp.precedence : BinaryOp → Precedence
  | .mul | .div | .rem => .product
  | .add | .sub => .sum
  | .shl | .shr => .shift
  | .bitAnd => .bitAnd
  | .bitXor => .bitXor
  | .bitOr => .bitOr
  | .eq | .lt | .le | .ne | .ge | .gt => .compare
  | .and => .and
  | .or => .or
  | .addAssign | .subAssign | .mulAssign | .divAssign | .remAssign | .bitXorAssign
  | .bitAndAssign | .bitOrAssign | .shlAssign | .shrAssign => .assign

/-- The operators, longer ones before those that they begin with. -/
def binaryOps : List BinaryOp :=
  [.addAssign, .subAssign, .mulAssign, .divAssign, .remAssign, .bitXorAssign, .bitAndAssign,
    .bitOrAssign, .shlAssign, .shrAssign, .and, .or, .shl, .shr, .eq, .le, .ne, .ge, .add, .sub,
    .mul, .div, .rem, .bitXor, .bitAnd, .bitOr, .lt, .gt]

/-- The operator between two expressions that comes next. -/
def binaryOp? (tokens : List Token) : Option BinaryOp :=
  binaryOps.find? fun operator => atOp operator.text tokens

/-- Whether an assignment comes next. -/
def atAssign (tokens : List Token) : Bool :=
  atOp "=" tokens && !atOp "=>" tokens

/-- How tightly whatever comes next binds to the expression before it. -/
def nextPrecedence (tokens : List Token) : Precedence :=
  match binaryOp? tokens with
  | some operator => operator.precedence
  | none =>
    if atAssign tokens then .assign
    else if atOp ".." tokens then .range
    else if atWord "as" tokens then .cast
    else .lowest

end ForeignWrap.Syntax
