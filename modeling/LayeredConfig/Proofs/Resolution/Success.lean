import LayeredConfig.Proofs.Success
import LayeredConfig.Resolution

namespace LayeredConfig

def Tag.Registry.PureAt (registry : Registry) (place : Place) : Prop :=
  ∀ name handler, Fields.get? registry name = some handler →
    ∀ args earlier earlier', handler ⟨args, place, earlier⟩ = handler ⟨args, place, earlier'⟩

namespace Resolution

open Tag

variable {α β : Type}

def Steady (run : Run α) : Prop := ∀ log log', (run.run log).1 = (run.run log').1

def success (run : Run α) : Option α := (run.run []).1.toOption

lemma Steady.ok_iff {run : Run α} (h : Steady run) {log : Log} {a : α} :
    (run.run log).1 = .ok a ↔ success run = some a := by
  rw [h log [], success]
  cases (run.run []).1 <;> simp [Except.toOption]

lemma exists_run_of_success {run : Run α} {a : α} (h : success run = some a) :
    ∃ log, run.run [] = (.ok a, log) := by
  rw [success] at h
  rcases hrun : run.run [] with ⟨_ | b, log⟩
  · rw [hrun] at h
    cases h
  · rw [hrun] at h
    cases h
    exact ⟨log, rfl⟩

lemma Steady.pure (a : α) : Steady (pure a : Run α) := fun _ _ => rfl

lemma run_bind_fst (run : Run α) (f : α → Run β) (log : Log) :
    ((run >>= f).run log).1 =
      (run.run log).1.bind fun a => ((f a).run (run.run log).2).1 := by
  simp only [bind, ExceptT.bind, ExceptT.run, ExceptT.mk, StateT.bind]
  rcases run log with ⟨_ | a, log'⟩ <;> rfl

lemma Steady.bind {run : Run α} {f : α → Run β} (h : Steady run) (hf : ∀ a, Steady (f a)) :
    Steady (run >>= f) := by
  intro log log'
  rw [run_bind_fst, run_bind_fst, h log log']
  cases (run.run log').1 with
  | error fault => rfl
  | ok a => exact hf a _ _

lemma success_bind (run : Run α) {f : α → Run β} (hf : ∀ a, Steady (f a)) :
    success (run >>= f) = (success run).bind fun a => success (f a) := by
  simp only [success, run_bind_fst]
  cases (run.run []).1 with
  | error fault => rfl
  | ok a => exact congrArg Except.toOption (hf a _ _)

@[simp] lemma success_pure (a : α) : success (pure a : Run α) = some a := rfl

lemma success_map (run : Run α) (f : α → β) : success (f <$> run) = (success run).map f := by
  rw [map_eq_pure_bind, success_bind run fun a => Steady.pure (f a)]
  cases success run <;> rfl

lemma Steady.note (e : Event) : Steady (note e) := fun _ _ => rfl

lemma run_evaluated (ctx : Context) (text : String) (log : Log) :
    ((evaluated ctx text).run log).1 = .ok (Formula.evaluate ctx.scope text.toList).value := by
  rw [evaluated]
  dsimp only
  split <;> rfl

lemma Steady.evaluated (ctx : Context) (text : String) : Steady (evaluated ctx text) := by
  intro log log'
  rw [run_evaluated, run_evaluated]

lemma success_evaluated (ctx : Context) (text : String) :
    success (evaluated ctx text) = some (Formula.evaluate ctx.scope text.toList).value := by
  rw [success, run_evaluated]
  rfl

lemma Steady.expression (ctx : Context) (text : String) : Steady (resolveExpression ctx text) := by
  rw [resolveExpression]
  split
  · exact (Steady.note _).bind fun _ => Steady.pure _
  · exact Steady.evaluated ctx text

lemma success_expression (ctx : Context) (text : String) :
    success (resolveExpression ctx text) = some (if ctx.defers text then .expression text
      else (Formula.evaluate ctx.scope text.toList).value) := by
  rw [resolveExpression]
  split
  · rw [success_bind _ fun _ => Steady.pure _]
    rfl
  · exact success_evaluated ctx text

lemma Steady.keepIf {ctx : Context} (condition : String) (value : Node) {resolved : Run Node}
    (h : Steady resolved) : Steady (keepIf ctx condition value resolved) := by
  rw [Resolution.keepIf]
  split
  · exact (Steady.note _).bind fun _ => Steady.pure _
  · refine (Steady.evaluated ctx condition).bind fun decision => ?_
    split
    · exact h.bind fun _ => Steady.pure _
    · exact Steady.pure _

lemma success_keepIf {ctx : Context} (condition : String) (value : Node) {resolved : Run Node}
    (h : Steady resolved) :
    success (keepIf ctx condition value resolved) =
      if ctx.defers condition then some (some (.conditional condition value))
      else if (Formula.evaluate ctx.scope condition.toList).value.truthy then
        (success resolved).map some
      else some none := by
  rw [keepIf]
  split
  · rw [success_bind _ fun _ => Steady.pure _]
    rfl
  · rw [success_bind, success_evaluated, Option.bind_some]
    · split
      · rw [success_bind _ fun _ => Steady.pure _]
        cases success resolved <;> rfl
      · rfl
    · intro decision
      split
      · exact h.bind fun _ => Steady.pure _
      · exact Steady.pure _

variable {ctx : Context}

lemma Steady.tag (hpure : ctx.registry.PureAt ctx.place) (name : String) (args : List String) :
    Steady (runTag ctx name args) := by
  intro log log'
  change (ctx.registry.run name args ctx.place log).1 = (ctx.registry.run name args ctx.place log').1
  unfold Registry.run
  cases h : Fields.get? ctx.registry name with
  | none => rfl
  | some handler => exact hpure name handler h args _ _

lemma run_runTag {name : String} {args : List String} {n : Node} {log log' : Log}
    (h : (runTag ctx name args).run log = (.ok n, log')) :
    ∃ handler, Fields.get? ctx.registry name = some handler ∧
      handler ⟨args, ctx.place, earlierRuns log⟩ = .ok n ∧ log' = log ++ [.runningTag name args] := by
  change ctx.registry.run name args ctx.place log = _ at h
  rw [Registry.run] at h
  split at h
  case h_1 => cases h
  case h_2 handler hg => exact ⟨handler, hg, (Prod.mk.inj h).1, (Prod.mk.inj h).2.symm⟩

mutual

lemma Steady.resolve (hpure : ctx.registry.PureAt ctx.place) : (n : Node) → Steady (resolve ctx n)
  | .mapping fields => (Steady.resolveFields hpure [] fields).bind fun _ => Steady.pure _
  | .sequence items => (Steady.resolveItems hpure items).bind fun _ => Steady.pure _
  | .expression text => Steady.expression ctx text
  | .tag name args => Steady.tag hpure name args
  | .conditional condition value =>
    (Steady.keepIf condition value (Steady.resolve hpure value)).bind fun _ => Steady.pure _
  | .null | .bool _ | .int _ | .float _ | .string _ => Steady.pure _

lemma Steady.resolveItems (hpure : ctx.registry.PureAt ctx.place) :
    (items : List Node) → Steady (resolveItems ctx items)
  | [] => Steady.pure _
  | item :: rest => by
    have hi := Steady.resolve hpure item
    have hr := Steady.resolveItems hpure rest
    cases item with
    | conditional condition value =>
      refine (Steady.keepIf condition value (Steady.resolve hpure value)).bind fun _ => ?_
      exact hr.bind fun _ => Steady.pure _
    | _ => exact hi.bind fun _ => hr.bind fun _ => Steady.pure _

lemma Steady.resolveFields (hpure : ctx.registry.PureAt ctx.place) (done : Mapping) :
    (fields : List (String × Node)) → Steady (resolveFields ctx done fields)
  | [] => Steady.pure _
  | (_, value) :: rest =>
    (Steady.resolve hpure value).bind fun _ => Steady.resolveFields hpure _ rest

end

lemma resolve_mapping (fields : Mapping) :
    resolve ctx (.mapping fields) = .mapping <$> resolveFields ctx [] fields := by
  simp [resolve]

lemma resolve_sequence (items : List Node) :
    resolve ctx (.sequence items) = .sequence <$> resolveItems ctx items := by
  simp [resolve]

lemma resolve_conditional (condition : String) (value : Node) :
    resolve ctx (.conditional condition value) =
      (·.getD .null) <$> keepIf ctx condition value (resolve ctx value) := by
  rw [resolve, bind_pure_comp]

lemma resolveItems_conditional (condition : String) (value : Node)
    (rest : List Node) :
    resolveItems ctx (.conditional condition value :: rest) =
      (do
        let kept ← keepIf ctx condition value (resolve ctx value)
        (kept.toList ++ ·) <$> resolveItems ctx rest) := by
  simp only [resolveItems, bind_pure_comp]

lemma resolveItems_cons {item : Node} (h : item.kind ≠ .conditional) (rest : List Node) :
    resolveItems ctx (item :: rest) =
      (do let item ← resolve ctx item; return item :: (← resolveItems ctx rest)) := by
  cases item with
  | conditional => exact absurd rfl h
  | _ => rfl

lemma success_conditional (hpure : ctx.registry.PureAt ctx.place) (condition : String)
    (value : Node) :
    success (resolve ctx (.conditional condition value)) =
      if ctx.defers condition then some (.conditional condition value)
      else if (Formula.evaluate ctx.scope condition.toList).value.truthy then
        success (resolve ctx value)
      else some .null := by
  rw [resolve_conditional, success_map, success_keepIf condition value (Steady.resolve hpure value)]
  split
  · rfl
  · split
    · cases success (resolve ctx value) <;> rfl
    · rfl

end Resolution

end LayeredConfig
