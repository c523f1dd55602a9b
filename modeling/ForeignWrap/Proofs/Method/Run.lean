import ForeignWrap.Proofs.Method.Scope
import ForeignWrap.Syntax.Reader

/-!
# What method bodies do when they run

The statements of a body run one after the other. They bind variables, fill an array, and call
functions that only the code outside of the method knows; what these are handed is told by the
events of the run. Nothing is done with a value that its form does not allow, and nothing is written
beside an array: a run that would do so has no result. Code that the directive holds stands in the
method itself: it can read the variables and the arrays, write to the arrays, and leave the method.

## Main definitions

* `ForeignWrap.Method.Callee`: what a name that is called stands for.
* `ForeignWrap.Method.Event`, `ForeignWrap.Method.State`: what happens, and the arrays.
* `ForeignWrap.Method.World`: what is done with values outside of the rules of a method.
* `ForeignWrap.Method.Expr.eval`, `ForeignWrap.Method.Stmt.exec`: expressions and statements run.
* `ForeignWrap.Method.execAll`: statements run in order.
-/

namespace ForeignWrap.Method

open Code (Token word)

/-! ## Values -/

/-- What a variable is bound to. `V` is the type of the values that only the code outside of the
method can look into. -/
inductive Datum (V : Type) where
  | value (v : V)
  /-- A sequence that is passed to the method. -/
  | elements (vs : List V)
  | array (index : Nat)
  /-- Where an array begins. -/
  | pointer (array : Nat)
  | count (n : Nat)
  /-- A length as the foreign function takes it. -/
  | length (n : UInt32)

/-- What is called: something outside of the method, or what a variable is bound to, which hides
it. -/
inductive Callee (V : Type) where
  | outside (path : List Token)
  | variable (d : Datum V)

/-! ## States -/

/-- What happens in a run. -/
inductive Event (V : Type) where
  | allocated (array length : Nat)
  | wrote (array slot : Nat) (value : V)
  /-- A function is called, while the arrays hold these values. -/
  | called (function : Callee V) (args : List (Datum V)) (arrays : List (List V))

/-- The arrays of a run and what has happened in it. -/
structure State (V : Type) where
  arrays : List (List V) := []
  events : List (Event V) := []

/-! ## Worlds -/

/-- What is done with values that no rule of a method says. The code outside of the method has no
hold on its arrays; code that the directive holds has. -/
structure World (V : Type) where
  /-- What a value answers to a method. -/
  ask : V → String → List (Datum V) → V
  cast : V → List Token → V
  /-- What code that the directive holds comes to, given what the variables are bound to, and the
  state that it leaves behind. Code that leaves the method, stops the program or never ends comes to
  nothing. -/
  code : (String → Option (Datum V)) → List Token → State V → Option (V × State V)
  /-- The value that a path stands for. -/
  item : List Token → V
  /-- What a function returns. -/
  answer : Callee V → List (Datum V) → V
  /-- The raw context that a context tells to what runs under its lock. -/
  rawContext : V → V
  null : V

/-- Code comes to a value wherever it stands, and leaves everything as it is. -/
def World.Yields {V : Type} (w : World V) (tokens : List Token) : Prop :=
  ∀ bound s, ∃ v, w.code bound tokens s = some (v, s)

/-! ## Variables -/

/-- The variables of a run, innermost first, and the receiver. -/
structure Env (V : Type) where
  self : Datum V
  bindings : List (String × Datum V)

variable {V : Type}

/-- Binds one more variable. -/
def Env.bind (env : Env V) (name : String) (d : Datum V) : Env V :=
  { env with bindings := (name, d) :: env.bindings }

/-- What a name stands for where it is called. -/
def callee (name : String) (bindings : List (String × Datum V)) : Callee V :=
  match lookup name bindings with
  | some d => .variable d
  | none => .outside (word name)

/-- Makes an array of as many null handles. -/
def State.allocate (w : World V) (s : State V) (length : Nat) : Datum V × State V :=
  (.array s.arrays.length,
    { arrays := s.arrays ++ [List.replicate length w.null]
      events := s.events ++ [.allocated s.arrays.length length] })

/-- Puts a value into a slot of an array, if there is such a slot. -/
def State.write (s : State V) (array slot : Nat) (v : V) : Option (State V) := do
  let slots ← s.arrays[array]?
  if slot < slots.length then
    some {
      arrays := s.arrays.set array (slots.set slot v)
      events := s.events ++ [.wrote array slot v] }
  else none

/-- Calls a function. -/
def State.call (w : World V) (s : State V) (function : Callee V) (args : List (Datum V)) :
    Datum V × State V :=
  (.value (w.answer function args),
    { s with events := s.events ++ [.called function args s.arrays] })

/-! ## Expressions -/

/-- Whether code is one expression. -/
def isExpression (tokens : List Token) : Bool :=
  (Syntax.Parser.run ((Syntax.Grammar.for tokens).expr true) tokens).toBool

/-- Whether the code of a type is one type after `as`, where no bounds are added to a type. -/
def isCastType (tokens : List Token) : Bool :=
  (Syntax.Parser.run ((Syntax.Grammar.for tokens).type false) tokens).toBool

/-- What something answers to a method. -/
def World.askDatum (w : World V) (arrays : List (List V)) (method : String)
    (args : List (Datum V)) : Datum V → Option (Datum V)
  | .value v => some (.value (w.ask v method args))
  | .elements vs => if method = "len" then some (.count vs.length) else none
  | .array index =>
    if method = "len" then arrays[index]?.map (.count ·.length)
    else if method = "as_ptr" then some (.pointer index)
    else none
  | .pointer _ | .count _ | .length _ => none

namespace World

@[simp] theorem askDatum_value (w : World V) (arrays : List (List V)) (method : String)
    (args : List (Datum V)) (v : V) :
    w.askDatum arrays method args (.value v) = some (.value (w.ask v method args)) :=
  rfl

@[simp] theorem askDatum_len_elements (w : World V) (arrays : List (List V))
    (args : List (Datum V)) (vs : List V) :
    w.askDatum arrays "len" args (.elements vs) = some (.count vs.length) :=
  rfl

@[simp] theorem askDatum_len_array (w : World V) (arrays : List (List V)) (args : List (Datum V))
    (index : Nat) :
    w.askDatum arrays "len" args (.array index) = arrays[index]?.map (.count ·.length) :=
  rfl

@[simp] theorem askDatum_asPtr_array (w : World V) (arrays : List (List V))
    (args : List (Datum V)) (index : Nat) :
    w.askDatum arrays "as_ptr" args (.array index) = some (.pointer index) :=
  rfl

end World

/-- What an expression stands for where it is called. -/
def Env.calleeOf (env : Env V) : Expr → Option (Callee V)
  | .name text _ => some (callee text env.bindings)
  | .path tokens => some (.outside tokens)
  | _ => none

/-- Runs code that a directive holds. -/
def World.runCode (w : World V) (env : Env V) (tokens : List Token) (s : State V) :
    Option (Datum V × State V) :=
  (w.code (lookup · env.bindings) tokens s).map fun (v, s) => (.value v, s)

mutual

/-- Runs an expression. A type that is not one type after `as` makes other code of a cast. -/
@[simp]
def Expr.eval (w : World V) (env : Env V) (s : State V) : Expr → Option (Datum V × State V)
  | .self => some (env.self, s)
  | .name text _ => (lookup text env.bindings).map (·, s)
  | .code tokens =>
    if isExpression tokens then w.runCode env tokens s else none
  | .path tokens => some (.value (w.item tokens), s)
  | .number n => some (.count n, s)
  | .ask receiver method args => do
    let (d, s) ← receiver.eval w env s
    let (ds, s) ← evalAll w env s args
    (w.askDatum s.arrays method ds d).map (·, s)
  | .call function args => do
    let called ← env.calleeOf function
    let (ds, s) ← evalAll w env s args
    some (s.call w called ds)
  | .cast value type =>
    if isCastType type then do
      match ← value.eval w env s with
      | (.value v, s) => some (.value (w.cast v type), s)
      | _ => none
    else w.runCode env (value.tokens ++ word "as" ++ type) s
  | .castLength length => do
    match ← length.eval w env s with
    | (.count n, s) => some (.length (.ofNat n), s)
    | _ => none
  | .sum left right => do
    let (a, s) ← left.eval w env s
    let (b, s) ← right.eval w env s
    match a, b with
    | .count m, .count n => some (.count (m + n), s)
    | _, _ => none
  | .reference value => value.eval w env s
  | .nulls length => do
    match ← length.eval w env s with
    | (.count n, s) => some (s.allocate w n)
    | _ => none
  | .locked context raw bound value result => do
    match ← context.eval w env s with
    | (.value c, s) =>
      let env := env.bind raw (.value (w.rawContext c))
      let (d, s) ← value.eval w env s
      result.eval w (env.bind bound d) s
    | _ => none

/-- Runs some expressions in order. -/
@[simp]
def evalAll (w : World V) (env : Env V) (s : State V) :
    List Expr → Option (List (Datum V) × State V)
  | [] => some ([], s)
  | e :: rest => do
    let (d, s) ← e.eval w env s
    let (ds, s) ← evalAll w env s rest
    some (d :: ds, s)

end

/-! ## Statements -/

/-- Runs a step for each element of a list, with its index. -/
@[simp]
def forEachFrom (step : Nat → V → State V → Option (State V)) (index : Nat) :
    List V → State V → Option (State V)
  | [], s => some s
  | v :: rest, s => do forEachFrom step (index + 1) rest (← step index v s)

/-- Runs a statement. -/
@[simp]
def Stmt.exec (w : World V) : Stmt → Env V → State V → Option (Env V × State V)
  | .bind name value, env, s => do
    let (d, s) ← value.eval w env s
    some (env.bind name d, s)
  | .bindArray name _ value, env, s => do
    let (d, s) ← value.eval w env s
    some (env.bind name d, s)
  | .assign array slot value, env, s => do
    let (d, s) ← value.eval w env s
    let (a, s) ← array.eval w env s
    let (i, s) ← slot.eval w env s
    match d, a, i with
    | .value v, .array a, .count i => (s.write a i v).map (env, ·)
    | _, _, _ => none
  | .forEach index item sequence body, env, s => do
    match ← sequence.eval w env s with
    | (.elements vs, s) =>
      let step (i : Nat) (v : V) (s : State V) : Option (State V) :=
        (body.exec w ((env.bind index (.count i)).bind item (.value v)) s).map (·.2)
      (forEachFrom step 0 vs s).map (env, ·)
    | _ => none
  | .run value, env, s => do
    let (_, s) ← value.eval w env s
    some (env, s)

/-- Runs some statements in order. -/
@[simp]
def execAll (w : World V) : List Stmt → Env V → State V → Option (Env V × State V)
  | [], env, s => some (env, s)
  | stmt :: rest, env, s => do
    let (env, s) ← stmt.exec w env s
    execAll w rest env s

/-- What a body is run with: the arguments of its method, the receiver first. -/
def Routine.start (r : Routine) (receiver : Datum V) (args : List (Datum V)) : Env V where
  self := receiver
  bindings := (r.params.zip args).reverse

/-- Statements run after others go on where these have ended. -/
theorem execAll_append {w : World V} {first rest : List Stmt} {env env' : Env V} {s s' : State V}
    (h : execAll w first env s = some (env', s')) :
    execAll w (first ++ rest) env s = execAll w rest env' s' := by
  induction first generalizing env s with
  | nil =>
    cases h
    rfl
  | cons stmt first ih =>
    simp only [execAll, bind, Option.bind_eq_some_iff] at h
    obtain ⟨⟨env₁, s₁⟩, hstmt, h⟩ := h
    simp only [List.cons_append, execAll, hstmt, bind, Option.bind_some]
    exact ih h

end ForeignWrap.Method
