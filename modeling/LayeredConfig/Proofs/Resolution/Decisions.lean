import LayeredConfig.Proofs.Resolution.Inputs

namespace LayeredConfig.Resolution

variable {ctx : Context} {symbols : Mapping} {condition : String} {value : Node}
  {resolved : Run Node}

def Context.holds (ctx : Context) (symbols : Mapping) (condition : String) : Bool :=
  (Formula.safeEval ⟨ctx.place.environment, symbols⟩ condition).truthy

def reported (ctx : Context) (text : String) : Run Unit :=
  match (Formula.evaluate ctx.scope text.toList).failure with
  | some (part, fault) => note (.keptText part fault)
  | none => pure ()

lemma evaluated_eq (ctx : Context) (text : String) : evaluated ctx text =
    (do reported ctx text; return (Formula.evaluate ctx.scope text.toList).value) := by
  rw [evaluated, reported]
  cases (Formula.evaluate ctx.scope text.toList).failure <;> rfl

lemma keepIf_deferred (h : ctx.defers condition = true) : keepIf ctx condition value resolved =
    (do note (.deferredConditional condition); return some (.conditional condition value)) := by
  rw [keepIf, if_pos h]

lemma keepIf_decided (h : ctx.defers condition = false) : keepIf ctx condition value resolved =
    (do
      reported ctx condition
      if (Formula.evaluate ctx.scope condition.toList).value.truthy then some <$> resolved
      else return none) := by
  rw [keepIf, if_neg (Bool.eq_false_iff.mp h), evaluated_eq, bind_assoc]
  simp only [pure_bind, bind_pure_comp]

lemma truthy_first (symbols : Mapping) (h : ctx.first.defers condition = false) :
    (Formula.evaluate ctx.first.scope condition.toList).value.truthy =
      ctx.holds symbols condition := by
  rw [evaluate_first_eq symbols h]
  rfl

lemma keepIf_first (symbols : Mapping) (h : ctx.first.defers condition = false) :
    keepIf ctx.first condition value resolved =
      (do
        reported ctx.first condition
        if ctx.holds symbols condition then some <$> resolved else return none) := by
  rw [keepIf_decided h, truthy_first symbols h]

lemma keepIf_second : keepIf (ctx.second symbols) condition value resolved =
    (do
      reported (ctx.second symbols) condition
      if ctx.holds symbols condition then some <$> resolved else return none) :=
  keepIf_decided (second_defers condition)

end LayeredConfig.Resolution
