import Mathlib.Data.List.TakeWhile

/-! Two runs side by side: they succeed together with related results, or fail together in the same
way, and leave the same state. -/

namespace LayeredConfig

variable {ε σ α β γ δ : Type}

inductive Agree (R : α → β → Prop) : Except ε α → Except ε β → Prop where
  | ok {a : α} {b : β} (h : R a b) : Agree R (.ok a) (.ok b)
  | error (e : ε) : Agree R (.error e) (.error e)

namespace Agree

variable {R : α → β → Prop} {S : γ → δ → Prop}

lemma ok_left {a : α} {y : Except ε β} (h : Agree R (.ok a) y) : ∃ b, y = .ok b ∧ R a b := by
  generalize hx : Except.ok a = x at h
  cases h with
  | ok hab =>
    cases hx
    exact ⟨_, rfl, hab⟩
  | error e => cases hx

lemma error_left {e : ε} {y : Except ε β} (h : Agree R (.error e) y) : y = .error e := by
  generalize hx : Except.error e = x at h
  cases h with
  | ok hab => cases hx
  | error e =>
    cases hx
    rfl

lemma error_iff {x : Except ε α} {y : Except ε β} (h : Agree R x y) (e : ε) :
    x = .error e ↔ y = .error e := by
  cases h with
  | ok => simp
  | error => simp

lemma map {f : α → γ} {g : β → δ} (hf : ∀ a b, R a b → S (f a) (g b)) {x : Except ε α}
    {y : Except ε β} (h : Agree R x y) : Agree S (x.map f) (y.map g) := by
  cases h with
  | ok hab => exact .ok (hf _ _ hab)
  | error e => exact .error e

lemma of_eq {R : α → α → Prop} (hR : ∀ a, R a a) {x y : Except ε α} (h : x = y) :
    Agree R x y := by
  obtain rfl := h
  cases x with
  | ok a => exact .ok (hR a)
  | error e => exact .error e

end Agree

def Tracks (R : α → β → Prop) (run : ExceptT ε (StateM σ) α) (run' : ExceptT ε (StateM σ) β) :
    Prop :=
  ∀ s, Agree R (run.run s).1 (run'.run s).1 ∧ (run.run s).2 = (run'.run s).2

namespace Tracks

variable {R : α → β → Prop} {S : γ → δ → Prop}

lemma pure {a : α} {b : β} (h : R a b) :
    Tracks R (pure a : ExceptT ε (StateM σ) α) (pure b) :=
  fun _ => ⟨.ok h, rfl⟩

lemma refl (run : ExceptT ε (StateM σ) α) : Tracks Eq run run := by
  intro s
  refine ⟨?_, rfl⟩
  cases (run.run s).1 with
  | ok a => exact .ok rfl
  | error e => exact .error e

lemma bind {run : ExceptT ε (StateM σ) α} {run' : ExceptT ε (StateM σ) β}
    {f : α → ExceptT ε (StateM σ) γ} {g : β → ExceptT ε (StateM σ) δ} (h : Tracks R run run')
    (hf : ∀ a b, R a b → Tracks S (f a) (g b)) : Tracks S (run >>= f) (run' >>= g) := by
  intro s
  obtain ⟨hresult, hstate⟩ := h s
  simp only [Bind.bind, ExceptT.bind, ExceptT.run, ExceptT.mk, StateT.bind] at hresult hstate ⊢
  generalize run s = out at *
  generalize run' s = out' at *
  obtain ⟨result, t⟩ := out
  obtain ⟨result', t'⟩ := out'
  obtain rfl : t = t' := hstate
  cases hresult with
  | ok hab => exact hf _ _ hab t
  | error e => exact ⟨.error e, rfl⟩

lemma foldlM {ι : Type} {f : α → ι → ExceptT ε (StateM σ) α} {g : β → ι → ExceptT ε (StateM σ) β}
    {items : List ι} (hf : ∀ item ∈ items, ∀ a b, R a b → Tracks R (f a item) (g b item)) {a : α}
    {b : β} (h : R a b) : Tracks R (items.foldlM f a) (items.foldlM g b) := by
  induction items generalizing a b with
  | nil => exact .pure h
  | cons item rest ih =>
    have hrest := fun next hm => hf next (List.mem_cons_of_mem _ hm)
    rw [List.foldlM_cons, List.foldlM_cons]
    exact .bind (hf item List.mem_cons_self a b h) fun a b h => ih hrest h

end Tracks

end LayeredConfig
