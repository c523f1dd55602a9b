import ForeignWrap.Proofs.Directive.Grammar
import ForeignWrap.Proofs.Method.Run

/-!
# Passing values in an array

What a directive asks to be passed, and how an array is filled with it: one slot after the other,
first by a statement for each fixed argument of the call and then by a loop over the sequence.

## Main definitions

* `ForeignWrap.Method.IsOnePiece`: what a directive holds can stand where it is put.
* `ForeignWrap.Method.ReadValue`, `ForeignWrap.Method.ArgValue`: what the directive asks for.
* `ForeignWrap.Method.Passed`: what a method is called with.
* `ForeignWrap.Method.filled`: the array while it is filled.
* `ForeignWrap.Method.ArgValues`: what the directive asks for, one slot after the other.
* `ForeignWrap.Method.passEvents`: what happens when it is passed.
-/

namespace ForeignWrap.Method

open Code (Token)
open Directive (HostArg ForeignArg Marked)
open Call (typeAs)

variable {V : Type}

/-! ## What a directive asks for -/

/-- What an argument of the call holds is one piece where it is put: a literal is one expression,
and a type is one type after `as`. -/
def IsOnePiece : ForeignArg → Prop
  | .literal code => ∀ tokens, Syntax.tokensOf code = .ok tokens → isExpression tokens = true
  | .reference _ none => True
  | .reference _ (some type) =>
    ∀ written, Syntax.typeOf type = .ok written → isCastType written.tokens = true

theorem isOnePiece_literal {code : String}
    (h : (Syntax.tokensOf code).map isExpression = .ok true) : IsOnePiece (.literal code) := by
  intro tokens htokens
  rw [htokens] at h
  exact Except.ok.inj h

theorem isOnePiece_cast {text type : String}
    (h : (Syntax.typeOf type).map (isCastType ·.tokens) = .ok true) :
    IsOnePiece (.reference text (some type)) := by
  intro written hwritten
  rw [hwritten] at h
  exact Except.ok.inj h

/-- What is read from a value that is passed as the argument `host`, or as an element of it. -/
inductive ReadValue (w : World V) (config : Config) (host : HostArg) (v : V) :
    Option String → V → Prop where
  | cast {type : String} {written : Syntax.Written .type} :
      typeAs .foreignType type = .ok written →
      ReadValue w config host v (some type) (w.cast v written.tokens)
  | unwrap :
      config.isExpr host.type = true →
      ReadValue w config host v none (w.ask (w.ask v "ast" []) "raw" [])
  | handle :
      config.isExpr host.type = false → ReadValue w config host v none (w.ask v "raw" [])

/-- The value of an argument of the call, if `hosts` are the arguments of the method. Code is worth
what it comes to in the state `s`, where the variables are bound to `bound`. -/
inductive ArgValue (w : World V) (config : Config) (d : Directive) (hosts : List (Datum V))
    (bound : String → Option (Datum V)) (s : State V) : ForeignArg → V → Prop where
  | literal {code : String} {tokens : List Token} {v : V} {s' : State V} :
      Syntax.tokensOf code = .ok tokens → w.code bound tokens s = some (v, s') →
      ArgValue w config d hosts bound s (.literal code) v
  | read {text base : String} {marked : Bool} {cast : Option String} {place : Nat} {host : HostArg}
      {v value : V} :
      Marked text base marked → d.hostArgs[place]? = some host → host.name = base →
      hosts[place]? = some (.value v) → ReadValue w config host v cast value →
      ArgValue w config d hosts bound s (.reference text cast) value

/-- What is passed as an argument of a method: a sequence, which has the given elements, or a single
value. -/
inductive PassedAs (elements : List V) : HostArg → Datum V → Prop where
  | sequence {host : HostArg} :
      host.variadic = true → PassedAs elements host (.elements elements)
  | single {host : HostArg} (v : V) :
      host.variadic = false → PassedAs elements host (.value v)

/-- A method for `d` is called with `hosts`, its receiver first. -/
def Passed (d : Directive) (hosts : List (Datum V)) (elements : List V) : Prop :=
  List.Forall₂ (PassedAs elements) d.hostArgs hosts

theorem Passed.sequence {d : Directive} {hosts : List (Datum V)} {elements : List V} {place : Nat}
    {host : HostArg} (h : Passed d hosts elements) (hhost : d.hostArgs[place]? = some host)
    (hsequence : host.variadic = true) : hosts[place]? = some (.elements elements) := by
  obtain ⟨datum, hdatum, hpassed⟩ := exists_getElem?_of_forall₂ h hhost
  cases hpassed with
  | sequence _ => exact hdatum
  | single _ hsingle =>
    rw [hsequence] at hsingle
    cases hsingle

theorem Passed.exists_single {d : Directive} {hosts : List (Datum V)} {elements : List V}
    {place : Nat} {host : HostArg} (h : Passed d hosts elements)
    (hhost : d.hostArgs[place]? = some host) (hsingle : host.variadic = false) :
    ∃ v, hosts[place]? = some (.value v) := by
  obtain ⟨datum, hdatum, hpassed⟩ := exists_getElem?_of_forall₂ h hhost
  cases hpassed with
  | sequence hsequence =>
    rw [hsingle] at hsequence
    cases hsequence
  | single v _ => exact ⟨v, hdatum⟩

/-- The context of a receiver, which may be one itself. -/
def contextValue (w : World V) (config : Config) (receiver : HostArg) (v : V) : V :=
  if config.isContext receiver.type then v else w.ask v "ctx" []

/-! ## Filling the array -/

/-- The array of the given length and what has happened, when the first slots hold `vs`. -/
def filled (w : World V) (length : Nat) (vs : List V) : State V where
  arrays := [vs ++ List.replicate (length - vs.length) w.null]
  events := .allocated 0 length :: vs.zipIdx.map fun (v, slot) => .wrote 0 slot v

theorem allocate_eq_filled (w : World V) (length : Nat) :
    ({} : State V).allocate w length = (.array 0, filled w length []) := rfl

/-- The next slot is there, if the array is longer than what has been written. -/
theorem write_filled {w : World V} {length : Nat} {vs : List V} {v : V} (h : vs.length < length) :
    (filled w length vs).write 0 vs.length v = some (filled w length (vs ++ [v])) := by
  obtain ⟨rest, hrest⟩ : ∃ rest, length - vs.length = rest + 1 := ⟨length - vs.length - 1, by omega⟩
  have hrest' : length - (vs ++ [v]).length = rest := by
    rw [List.length_append, List.length_singleton]
    omega
  simp only [State.write, filled, hrest, hrest', List.replicate_succ]
  simp [List.zipIdx_append]

/-- The values of arguments of the call, each of them where the slots before its own are filled:
those hold `done` and then the values of the arguments before it. -/
inductive ArgValues (w : World V) (config : Config) (d : Directive) (hosts : List (Datum V))
    (bound : String → Option (Datum V)) (length : Nat) :
    (done : List V) → List ForeignArg → List V → Prop where
  | nil (done : List V) : ArgValues w config d hosts bound length done [] []
  | cons {done values : List V} {foreign : ForeignArg} {rest : List ForeignArg} {v : V} :
      ArgValue w config d hosts bound (filled w length done) foreign v →
      ArgValues w config d hosts bound length (done ++ [v]) rest values →
      ArgValues w config d hosts bound length done (foreign :: rest) (v :: values)

theorem ArgValues.length_eq {w : World V} {config : Config} {d : Directive}
    {hosts : List (Datum V)} {bound : String → Option (Datum V)} {length : Nat}
    {done values : List V} {fixed : List ForeignArg}
    (h : ArgValues w config d hosts bound length done fixed values) :
    fixed.length = values.length := by
  induction h with
  | nil => rfl
  | cons _ _ ih => rw [List.length_cons, List.length_cons, ih]

/-- The values of expressions that change nothing, each of them where the slots before its own are
filled. -/
inductive HaveValues (w : World V) (env : Env V) (length : Nat) :
    (done : List V) → List Expr → List V → Prop where
  | nil (done : List V) : HaveValues w env length done [] []
  | cons {done values : List V} {e : Expr} {rest : List Expr} {v : V} :
      e.eval w env (filled w length done) = some (.value v, filled w length done) →
      HaveValues w env length (done ++ [v]) rest values →
      HaveValues w env length done (e :: rest) (v :: values)

theorem HaveValues.length_eq {w : World V} {env : Env V} {length : Nat} {done values : List V}
    {es : List Expr} (h : HaveValues w env length done es values) : es.length = values.length := by
  induction h with
  | nil => rfl
  | cons _ _ ih => rw [List.length_cons, List.length_cons, ih]

/-- The statements for the fixed arguments fill one slot after the other. -/
theorem execAll_fillStmts {w : World V} {env : Env V} {length : Nat} {es : List Expr}
    {done vs : List V} (harray : lookup "cargs" env.bindings = some (.array 0))
    (hvalues : HaveValues w env length done es vs) (hlength : done.length + vs.length ≤ length) :
    execAll w ((es.zipIdx done.length).map fun (e, slot) => .assign arrayExpr (.number slot) e) env
      (filled w length done) = some (env, filled w length (done ++ vs)) := by
  induction hvalues with
  | nil => simp
  | @cons done vs e es v he _ ih =>
    rw [List.length_cons] at hlength
    have hwrite : (filled w length done).write 0 done.length v =
        some (filled w length (done ++ [v])) := write_filled (by omega)
    have hexec : (Stmt.assign arrayExpr (.number done.length) e).exec w env (filled w length done) =
        some (env, filled w length (done ++ [v])) := by
      simp [he, arrayExpr, harray, hwrite]
    have hnext : done.length + 1 = (done ++ [v]).length := by
      rw [List.length_append, List.length_singleton]
    have hrest := ih (by rw [← hnext]; omega)
    rw [← hnext, List.append_assoc, List.singleton_append] at hrest
    rw [List.zipIdx_cons, List.map_cons, execAll, hexec]
    exact hrest

/-- A loop that writes the next slot in each turn fills one slot after the other. -/
theorem forEachFrom_filled {w : World V} {length : Nat}
    {step : Nat → V → State V → Option (State V)} {f : V → V} {fixed index : Nat}
    {done elements : List V}
    (hstep : ∀ i v done, done.length = i + fixed → done.length < length →
      step i v (filled w length done) = some (filled w length (done ++ [f v])))
    (hdone : done.length = index + fixed) (hlength : done.length + elements.length ≤ length) :
    forEachFrom step index elements (filled w length done) =
      some (filled w length (done ++ elements.map f)) := by
  induction elements generalizing done index with
  | nil => simp
  | cons v elements ih =>
    rw [List.length_cons] at hlength
    have hnext : (done ++ [f v]).length = done.length + 1 := by
      rw [List.length_append, List.length_singleton]
    have hrest := @ih (index + 1) (done ++ [f v]) (by omega) (by omega)
    rw [List.append_assoc, List.singleton_append] at hrest
    rw [forEachFrom, hstep index v done hdone (by omega), List.map_cons]
    exact hrest

/-! ## Passing the array -/

/-- The array holds nothing but what has been written when all of its slots are. -/
theorem arrays_filled {w : World V} {slots : List V} :
    (filled w slots.length slots).arrays = [slots] := by
  simp [filled]

/-- What the foreign function is handed: the raw context, the length of the array and where it
begins. -/
def handed (w : World V) (context : V) (length : Nat) : List (Datum V) :=
  [.value (w.rawContext context), .length (.ofNat length), .pointer 0]

/-- What is wrapped under the lock: the result of the function. -/
def wrapped (w : World V) (context : V) (function : Callee V) (length : Nat) : List (Datum V) :=
  [.value context, .value (w.rawContext context),
    .value (w.answer function (handed w context length))]

/-- What is wrapped gives the result of the method. -/
def astValue (w : World V) (context : V) (function : Callee V) (length : Nat) : V :=
  w.answer (.outside (pathCode ["Ast", "wrap_locked"])) (wrapped w context function length)

/-- What happens in a run that fills an array with `slots` and passes it: it is made, each slot is
written, the function is called while the array is full, and the array is kept alive after that. -/
def passEvents (w : World V) (context : V) (function keeper : Callee V) (slots : List V) :
    List (Event V) :=
  .allocated 0 slots.length :: slots.zipIdx.map (fun (v, slot) => .wrote 0 slot v) ++
    [.called function (handed w context slots.length) [slots],
      .called (.outside (pathCode ["Ast", "wrap_locked"]))
        (wrapped w context function slots.length) [slots],
      .called keeper [.array 0] [slots]]

/-! ## Reading arguments -/

/-- What is read from a value. -/
def accessValue (w : World V) (v : V) : Call.Access → V
  | .unwrap => w.ask (w.ask v "ast" []) "raw" []
  | .handle => w.ask v "raw" []
  | .cast type => w.cast v type

/-- The type that a value is read as is one type after `as`. -/
def IsOnePieceAccess (access : Call.Access) : Prop :=
  ∀ type, access = .cast type → isCastType type = true

theorem eval_accessExpr {w : World V} {env : Env V} {s : State V} {e : Expr} {v : V}
    {access : Call.Access} (h : e.eval w env s = some (.value v, s))
    (haccess : IsOnePieceAccess access) :
    (accessExpr e access).eval w env s = some (.value (accessValue w v access), s) := by
  cases access with
  | unwrap => simp [accessExpr, h, accessValue]
  | handle => simp [accessExpr, h, accessValue]
  | cast type => simp [accessExpr, h, haccess type rfl, accessValue]

/-- The access that is found for an argument is one piece if the argument is. -/
theorem isOnePieceAccess_of_accessOf_eq_ok {config : Config} {host : HostArg} {text : String}
    {cast : Option String} {access : Call.Access} (hpiece : IsOnePiece (.reference text cast))
    (h : Call.accessOf config host cast = .ok access) : IsOnePieceAccess access := by
  rintro type rfl
  cases cast with
  | some asked =>
    obtain ⟨written, htype, heq⟩ := map_eq_ok_iff.1 h
    cases heq
    exact hpiece written (mapError_eq_ok_iff.1 htype)
  | none =>
    rw [Call.accessOf] at h
    split at h <;> cases h

/-- The access that is found for an argument reads what the directive asks for. -/
theorem readValue_of_accessOf_eq_ok {w : World V} {config : Config} {host : HostArg} {v : V}
    {cast : Option String} {access : Call.Access}
    (h : Call.accessOf config host cast = .ok access) :
    ReadValue w config host v cast (accessValue w v access) := by
  cases cast with
  | some type =>
    obtain ⟨written, htype, rfl⟩ := map_eq_ok_iff.1 h
    exact .cast htype
  | none =>
    rw [Call.accessOf] at h
    by_cases hexpr : config.isExpr host.type = true
    · rw [if_pos hexpr] at h
      cases h
      exact .unwrap hexpr
    · rw [if_neg hexpr] at h
      cases h
      exact .handle (by simpa using hexpr)

end ForeignWrap.Method
