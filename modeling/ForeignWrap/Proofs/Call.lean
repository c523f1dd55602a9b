import ForeignWrap.Call
import ForeignWrap.Proofs.Directive.Validity

/-!
# What the arguments of a foreign call are bound to

Each argument of a call is code of the directive, or it reads one argument of the method in the one
way that its cast and the type of that argument ask for. A sequence is read by the last argument
and by no other.

## Main definitions

* `ForeignWrap.Call.hostPlace`: the argument of the method that is read, by its place.
* `ForeignWrap.Call.Binds`: what an argument of the call is bound to.
* `ForeignWrap.Call.binds_of_bind_eq_ok`: the arguments of a call, one by one.
-/

namespace ForeignWrap.Call

open Code (Token)
open Directive (ForeignArg HostArg Valid endsWithSequence endsWithSequence_iff readPart)

/-! ## Bindings -/

/-- The place of the argument of the method that an argument of the call reads. -/
def hostPlace (d : Directive) : ForeignArg → Nat
  | .literal _ => 0
  | .reference text _ => d.hostArgs.findIdx (·.name = (Directive.splitMarker text).1)

/-- What an argument of the call is bound to. -/
inductive Binds (config : Config) (d : Directive) : ForeignArg → Arg → Prop where
  | literal {code : String} {tokens : List Token} :
      Syntax.tokensOf code = .ok tokens → Binds config d (.literal code) (.literal tokens)
  | read {text name : String} {cast : Option String} {host : HostArg} {access : Access} :
      d.hostArgs[hostPlace d (.reference text cast)]? = some host →
      host.name = (Directive.splitMarker text).1 → accessOf config host cast = .ok access →
      identifier host.name = .ok name →
      Binds config d (.reference text cast) (.read name access host.variadic)

theorem getElem?_findIdx {α : Type} (p : α → Bool) (xs : List α) :
    xs[xs.findIdx p]? = xs.find? p := by
  induction xs with
  | nil => rfl
  | cons x xs ih => cases h : p x <;> simp [List.findIdx_cons, h, ih]

theorem binds_of_bindArg_eq_ok {config : Config} {d : Directive} {foreign : ForeignArg} {arg : Arg}
    (h : bindArg config d foreign = .ok arg) : Binds config d foreign arg := by
  cases foreign with
  | literal code =>
    obtain ⟨tokens, htokens, rfl⟩ := map_eq_ok_iff.1 h
    exact .literal (mapError_eq_ok_iff.1 htokens)
  | reference text cast =>
    simp only [bindArg] at h
    cases hhost : d.hostArg? (Directive.splitMarker text).1 with
    | none =>
      rw [hhost] at h
      cases h
    | some host =>
      rw [hhost] at h
      simp only [bind_eq_ok_iff] at h
      obtain ⟨access, haccess, name, hname, h⟩ := h
      cases h
      have hplace : d.hostArgs[hostPlace d (.reference text cast)]? = some host := by
        rw [hostPlace, getElem?_findIdx]
        exact hhost
      exact .read hplace (by simpa using List.find?_some hhost) haccess hname

/-- The arguments of a call are bound one by one. -/
theorem binds_of_bind_eq_ok {config : Config} {d : Directive} {args : List Arg}
    (h : bind config d = .ok args) : List.Forall₂ (Binds config d) d.foreignArgs args :=
  (mapM_eq_ok_iff.1 h).imp fun _ _ => binds_of_bindArg_eq_ok

/-! ## Sequences -/

variable {config : Config} {d : Directive} {args : List Arg}

/-- What reads an argument of the method is a reference that names it. -/
theorem exists_host_of_binds_read {foreign : ForeignArg} {name : String} {access : Access}
    {variadic : Bool} (h : Binds config d foreign (.read name access variadic)) :
    ∃ text cast host, foreign = .reference text cast ∧
      d.hostArgs[hostPlace d (.reference text cast)]? = some host ∧
      host.name = (Directive.splitMarker text).1 ∧ accessOf config host cast = .ok access ∧
      host.variadic = variadic := by
  cases h with
  | read hplace hname haccess _ => exact ⟨_, _, _, rfl, hplace, hname, haccess, rfl⟩

/-- What names an argument of the method reads it. -/
theorem Binds.eq_read {foreign : ForeignArg} {arg : Arg} {host : HostArg} {marked : Bool}
    (hvalid : Valid d) (hhost : host ∈ d.hostArgs) (h : Binds config d foreign arg)
    (hrefers : foreign.Refers host.name marked) :
    ∃ name access, arg = .read name access host.variadic := by
  cases h with
  | literal _ => exact absurd hrefers Directive.not_refers_literal
  | @read text name cast host' access hplace hname _ _ =>
    have hsame : host' = host := by
      refine List.inj_on_of_nodup_map hvalid.names_nodup (List.mem_of_getElem? hplace) hhost ?_
      rw [hname, Directive.refers_reference_iff.1 hrefers]
    rw [hsame]
    exact ⟨name, access, rfl⟩

@[simp] theorem variadic?_concat (front : List Arg) (last : Arg) :
    variadic? (front ++ [last]) = if last.isVariadic then some last else none := by
  simp [variadic?, Option.filter]

/-- Where the last argument of the method is a sequence, the last argument of the call reads it, and
none before that does. -/
theorem exists_split_of_endsWithSequence (hvalid : Valid d) (hbind : bind config d = .ok args)
    (hd : endsWithSequence d = true) :
    ∃ before text cast front name access host,
      d.foreignArgs = before ++ [.reference text cast] ∧ args = front ++ [.read name access true] ∧
      List.Forall₂ (Binds config d) before front ∧ (∀ arg ∈ front, arg.isVariadic = false) ∧
      Binds config d (.reference text cast) (.read name access true) ∧
      d.hostArgs[hostPlace d (.reference text cast)]? = some host ∧ host.variadic = true ∧
      Directive.Marked text host.name true ∧ accessOf config host cast = .ok access := by
  obtain ⟨host, hhost, hvariadic⟩ := (endsWithSequence_iff hvalid).1 hd
  obtain ⟨before, foreign, hsplit, hrefers, hothers⟩ :=
    hvalid.sequence_last host hhost hvariadic
  have hbinds := binds_of_bind_eq_ok hbind
  rw [hsplit, forall₂_concat_left_iff] at hbinds
  obtain ⟨front, last, hargs, hfront, hlast⟩ := hbinds
  obtain ⟨name, access, rfl⟩ := hlast.eq_read hvalid hhost hrefers
  rw [hvariadic] at hargs hlast
  obtain ⟨text, cast, host', rfl, hplace, hname, haccess, hvariadic'⟩ :=
    exists_host_of_binds_read hlast
  have hmarked : Directive.Marked text host'.name true := by
    rw [Directive.refers_reference_iff] at hrefers
    rw [← Directive.splitMarker_eq_iff, hname, hrefers]
  refine ⟨before, text, cast, front, name, access, host', hsplit, hargs, hfront, ?_, hlast, hplace,
    hvariadic', hmarked, haccess⟩
  have hmem : List.Forall₂ (fun f arg => f ∈ before ∧ Binds config d f arg) before front :=
    (List.forall₂_and_left _ _).2 ⟨fun f hf => hf, hfront⟩
  refine forall_mem_of_forall₂ hmem.flip fun arg f ⟨hf, harg⟩ => ?_
  cases arg with
  | literal code => rfl
  | read name access variadic =>
    obtain ⟨text, cast, host', rfl, hplace, hname, -, rfl⟩ := exists_host_of_binds_read harg
    -- There is only one sequence, and only the last argument names it.
    by_contra hsequence
    have hsame : some host' = some host := by
      rw [← (Directive.variadicArg?_eq_some_iff hvalid.bare_before_last).2 ⟨hhost, hvariadic⟩]
      exact ((Directive.variadicArg?_eq_some_iff hvalid.bare_before_last).2
        ⟨List.mem_of_getElem? hplace, by simpa [Arg.isVariadic] using hsequence⟩).symm
    refine hothers _ hf (Directive.splitMarker text).2 ?_
    rw [Directive.refers_reference_iff, ← Option.some.inj hsame, hname]

/-- Where the method does not end with a sequence, the call passes none. -/
theorem not_isVariadic_of_mem (hvalid : Valid d) (hbind : bind config d = .ok args)
    (hd : endsWithSequence d = false) : ∀ arg ∈ args, arg.isVariadic = false := by
  refine forall_mem_of_forall₂ (binds_of_bind_eq_ok hbind).flip fun arg f hbinds => ?_
  cases arg with
  | literal code => rfl
  | read name access variadic =>
    obtain ⟨_, _, host, -, hplace, -, -, rfl⟩ := exists_host_of_binds_read hbinds
    by_contra hsequence
    have hsome := (endsWithSequence_iff hvalid).2
      ⟨host, List.mem_of_getElem? hplace, by simpa [Arg.isVariadic] using hsequence⟩
    rw [hd] at hsome
    cases hsome

/-- The call passes a sequence exactly if the last argument of the method is one. -/
theorem isSome_variadic?_eq (hvalid : Valid d) (hbind : bind config d = .ok args) :
    (variadic? args).isSome = endsWithSequence d := by
  cases hd : endsWithSequence d with
  | true =>
    obtain ⟨_, _, _, front, name, access, _, -, rfl, -⟩ :=
      exists_split_of_endsWithSequence hvalid hbind hd
    rw [variadic?_concat]
    rfl
  | false =>
    have hnone : variadic? args = none := by
      rw [variadic?, Option.filter_eq_none_iff]
      intro arg harg hvariadic
      rw [not_isVariadic_of_mem hvalid hbind hd arg (List.mem_of_getLast? harg)] at hvariadic
      cases hvariadic
    rw [hnone]
    rfl

end ForeignWrap.Call
