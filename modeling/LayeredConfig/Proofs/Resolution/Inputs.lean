import LayeredConfig.Proofs.Formula.Independence
import LayeredConfig.Proofs.Formula.Origins
import LayeredConfig.Proofs.Node.Within
import LayeredConfig.Proofs.Resolution.Settled
import LayeredConfig.Proofs.Resolution.Success

namespace LayeredConfig.Resolution

open Node Tag

structure SettledScope (scope : Formula.Scope) : Prop where
  environment : ∀ name n, scope.environment.get? name = some n → n.Settled
  symbols : ∀ name n, Fields.get? scope.symbols name = some n → n.Settled

lemma settled_of_origin {scope : Formula.Scope} (hscope : SettledScope scope) {n : Node}
    (h : Formula.Origin scope n) : n.Settled := by
  cases h with
  | null | text => trivial
  | computed h =>
    cases n with
    | bool | int | float => trivial
    | _ => cases h
  | «variable» h => exact hscope.environment _ _ h
  | symbol h => exact hscope.symbols _ _ h

structure SettledInputs (ctx : Context) (symbols : Mapping) : Prop where
  pure : ctx.registry.PureAt ctx.place
  environment : ∀ name n, ctx.place.environment.get? name = some n → n.Settled
  symbols : ∀ name n, Fields.get? symbols name = some n → n.Settled
  tags : ∀ name handler, Fields.get? ctx.registry name = some handler →
    ∀ args earlier n, handler ⟨args, ctx.place, earlier⟩ = .ok n → n.Settled

variable {ctx : Context} {symbols : Mapping}

abbrev Context.first (ctx : Context) : Context := { ctx with symbols := none }

abbrev Context.second (ctx : Context) (symbols : Mapping) : Context :=
  { ctx with symbols := some symbols }

lemma pureAt_first (h : ctx.registry.PureAt ctx.place) :
    ctx.first.registry.PureAt ctx.first.place := h

lemma pureAt_second (h : ctx.registry.PureAt ctx.place) (symbols : Mapping) :
    (ctx.second symbols).registry.PureAt (ctx.second symbols).place := h

lemma second_defers (text : String) : (ctx.second symbols).defers text = false := rfl

lemma evaluate_first_eq (symbols : Mapping) {text : String} (h : ctx.first.defers text = false) :
    Formula.evaluate ctx.first.scope text.toList =
      Formula.evaluate (ctx.second symbols).scope text.toList :=
  Formula.evaluate_congr (by simpa [Context.defers] using h) ctx.place.environment [] symbols

section

variable (h : SettledInputs ctx symbols)
include h

lemma evaluate_second_settled (text : String) :
    (Formula.evaluate (ctx.second symbols).scope text.toList).value.Settled :=
  settled_of_origin ⟨h.environment, h.symbols⟩ (Formula.evaluate_origin _ _)

lemma runTag_settled {name : String} {args : List String} {n : Node}
    (hn : success (runTag ctx name args) = some n) : n.Settled := by
  obtain ⟨log, hrun⟩ := exists_run_of_success hn
  obtain ⟨handler, hg, hr, -⟩ := run_runTag hrun
  exact h.tags name handler hg args _ n hr

end

structure ResolvedInputs (ctx : Context) (symbols : Mapping) : Prop where
  environment : ∀ name n, ctx.place.environment.get? name = some n → n.isResolved = true
  symbols : ∀ name n, Fields.get? symbols name = some n → n.isResolved = true
  tags : ∀ name handler, Fields.get? ctx.registry name = some handler →
    ∀ args earlier n, handler ⟨args, ctx.place, earlier⟩ = .ok n → n.isResolved = true

lemma SettledInputs.resolved (h : SettledInputs ctx symbols) : ResolvedInputs ctx symbols where
  environment name n hn := isResolved_of_settled (h.environment name n hn)
  symbols name n hn := isResolved_of_settled (h.symbols name n hn)
  tags name handler hg args earlier n hn :=
    isResolved_of_settled (h.tags name handler hg args earlier n hn)

section

variable (h : ResolvedInputs ctx symbols)
include h

lemma isResolved_of_origin {n : Node} (hn : Formula.Origin (ctx.second symbols).scope n) :
    n.isResolved = true := by
  cases hn with
  | null | text => rfl
  | computed hn =>
    cases n with
    | bool | int | float => rfl
    | _ => cases hn
  | «variable» hn => exact h.environment _ _ hn
  | symbol hn => exact h.symbols _ _ hn

lemma runTag_isResolved {name : String} {args : List String} {n : Node} {log log' : Log}
    (hrun : (runTag (ctx.second symbols) name args).run log = (.ok n, log')) :
    n.isResolved = true := by
  obtain ⟨handler, hg, hr, -⟩ := run_runTag hrun
  exact h.tags name handler hg args _ n hr

lemma evaluate_first_isResolved {text : String} (hd : ctx.first.defers text = false) :
    (Formula.evaluate ctx.first.scope text.toList).value.isResolved = true := by
  rw [evaluate_first_eq symbols hd]
  exact isResolved_of_origin h (Formula.evaluate_origin _ _)

lemma kind_of_first {n m : Node} (hn : n.kind ≠ .conditional)
    (hm : success (resolve ctx.first n) = some m) : m.kind ≠ .conditional := by
  have hkind : ∀ {m : Node}, m.isResolved = true → m.kind ≠ .conditional := by
    intro m hresolved
    cases m with
    | conditional => cases hresolved
    | _ => simp [kind]
  cases n with
  | mapping fields =>
    rw [resolve_mapping, success_map] at hm
    obtain ⟨_, -, rfl⟩ := Option.map_eq_some_iff.mp hm
    simp [kind]
  | sequence items =>
    rw [resolve_sequence, success_map] at hm
    obtain ⟨_, -, rfl⟩ := Option.map_eq_some_iff.mp hm
    simp [kind]
  | expression text =>
    rw [resolve, success_expression] at hm
    split at hm
    · cases hm
      exact hn
    case isFalse hd =>
      cases hm
      exact hkind (evaluate_first_isResolved h (Bool.eq_false_iff.mpr hd))
  | tag name args =>
    obtain ⟨log, hrun⟩ := exists_run_of_success hm
    exact hkind (runTag_isResolved h hrun)
  | conditional => exact absurd rfl hn
  | _ =>
    cases hm
    exact hn

end

end LayeredConfig.Resolution
