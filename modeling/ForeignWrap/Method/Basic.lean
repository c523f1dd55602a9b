import ForeignWrap.Call
import ForeignWrap.Method.Doc

/-!
# Methods

A method that wraps a foreign function runs in steps: it names its receiver, finds the context,
gathers a sequence into an array if there is one, calls the function under the lock of the context,
and keeps the arguments alive until the result has a reference of its own.

## Main definitions

* `ForeignWrap.Method`: a method on a type.
* `ForeignWrap.Method.Step`: a step of a method that wraps a foreign function.
-/

namespace ForeignWrap

open Code (Token)

namespace Method

/-- How an argument is passed. -/
inductive Passing where
  | byValue
  | byReference
  /-- A sequence of elements of the type. -/
  | slice
deriving DecidableEq, Repr

/-- An argument of a method after its receiver. -/
structure Param where
  name : String
  type : List Token
  passing : Passing

/-- The arguments of the foreign function after the context. -/
inductive CallArgs where
  /-- One argument for each that the directive names. -/
  | each (args : List Call.Arg)
  /-- The length of the array and where it begins. -/
  | array

/-- A step of a method that wraps a foreign function. -/
inductive Step where
  /-- Gives the receiver its name. -/
  | nameReceiver (name : String)
  /-- Asks the receiver for its context. -/
  | askContext (receiver : String)
  /-- Takes the receiver, which is a context, for the context. -/
  | aliasContext (receiver : String)
  /-- Makes an array of null handles, one for each fixed argument and each element. -/
  | makeArray (handleType : List Token) (sequence : String) (fixed : Nat)
  /-- Puts a fixed argument into its slot. -/
  | fillSlot (slot : Nat) (value : Call.Arg)
  /-- Puts each element into its slot, `fixed` slots further on than its index. -/
  | fillRest (sequence : String) (fixed : Nat) (element : Call.Arg)
  /-- Calls the function under the lock, and wraps its result there. -/
  | call (function : String) (args : CallArgs)
  | keepAlive (name : String)
  | keepArrayAlive

/-- What a method answers with. -/
inductive Answer where
  /-- The result as a value of the kind that it turns out to have. -/
  | lift
  /-- The result as a value of the type, which is a path without arguments. -/
  | convert (type : List Token)
  /-- The result as a value of the type, whatever its form. -/
  | convertQualified (type : List Token)

/-- What a method does. -/
inductive Body where
  /-- Wraps a foreign function. -/
  | wrap (steps : List Step) (answer : Answer)
  /-- Says that the receiver and `other` are distinct, both as values of `exprType`. -/
  | distinct (exprType : List Token) (other : String)

end Method

/-- A method on a type. -/
structure Method where
  selfType : List Token
  docs : List Doc
  name : String
  /-- The arguments after the receiver. -/
  params : List Method.Param
  result : List Token
  body : Method.Body

end ForeignWrap
