import Mathlib.Data.List.TakeWhile

namespace LayeredConfig

variable {ε α β : Type}

lemma bind_eq_ok {x : Except ε α} {f : α → Except ε β} {b : β} :
    x >>= f = .ok b ↔ ∃ a, x = .ok a ∧ f a = .ok b := by
  cases x <;> simp [bind, Except.bind]

lemma pure_eq_ok {a b : α} : (pure a : Except ε α) = .ok b ↔ a = b := by
  simp [pure, Except.pure]

lemma map_eq_ok {x : Except ε α} {f : α → β} {b : β} :
    x.map f = .ok b ↔ ∃ a, x = .ok a ∧ f a = b := by
  cases x <;> simp [Except.map]

lemma run_bind_eq_ok {ε σ α β : Type} {run : ExceptT ε (StateM σ) α}
    {f : α → ExceptT ε (StateM σ) β} {s s' : σ} {b : β} :
    (run >>= f).run s = (.ok b, s') ↔
      ∃ a between, run.run s = (.ok a, between) ∧ (f a).run between = (.ok b, s') := by
  simp only [bind, ExceptT.bind, ExceptT.run, ExceptT.mk, StateT.bind]
  rcases run s with ⟨_ | a, between⟩
  · constructor
    · intro h
      cases h
    · rintro ⟨a, between', h, -⟩
      cases h
  · constructor
    · exact fun h => ⟨a, between, rfl, h⟩
    · rintro ⟨_, _, h, hf⟩
      cases h
      exact hf

section

variable {σ : Type} {run : ExceptT ε (StateM σ) α} {f : α → ExceptT ε (StateM σ) β} {s between : σ}

lemma run_bind_of_ok {a : α} (h : run.run s = (.ok a, between)) :
    (run >>= f).run s = (f a).run between := by
  simp only [bind, ExceptT.bind, ExceptT.run, ExceptT.mk, StateT.bind] at h ⊢
  rw [h]
  rfl

lemma run_bind_of_error {e : ε} (h : run.run s = (.error e, between)) :
    (run >>= f).run s = (.error e, between) := by
  simp only [bind, ExceptT.bind, ExceptT.run, ExceptT.mk, StateT.bind] at h ⊢
  rw [h]
  rfl

end

end LayeredConfig
