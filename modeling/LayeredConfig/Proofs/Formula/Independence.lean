import LayeredConfig.Proofs.Formula.Leaves
import LayeredConfig.Proofs.Formula.Scanning
import Mathlib

/-! A formula without symbols has the same value under all tables of symbols. -/

namespace LayeredConfig.Formula

open Text

lemma value_congr {env : Environment} {σ τ : Mapping} {term : Term}
    (h : ∀ leaf ∈ term.leaves, leaf.value ⟨env, σ⟩ = leaf.value ⟨env, τ⟩) :
    term.value ⟨env, σ⟩ = term.value ⟨env, τ⟩ := by
  induction term with
  | literal | «variable» | symbol => exact h _ (by simp [Term.leaves])
  | signed sign operand ih => simp only [Term.value, ih h]
  | binary operator left right ihl ihr =>
    have hl := ihl fun leaf hx => h leaf (List.mem_append_left _ hx)
    have hr := ihr fun leaf hx => h leaf (List.mem_append_right _ hx)
    cases operator <;> simp only [Term.value, hl, hr]

lemma atom_value_congr {t : Lexeme} {leaf : Term} (ha : atom? t = some leaf)
    (ht : t.isSymbol = false) (env : Environment) (σ τ : Mapping) :
    leaf.value ⟨env, σ⟩ = leaf.value ⟨env, τ⟩ := by
  cases t with
  | symbol name => cases ht
  | _ => cases ha <;> rfl

lemma evaluate?_congr {s : List Char} (h : referencesSymbols s = false) (env : Environment)
    (σ τ : Mapping) : evaluate? ⟨env, σ⟩ s = evaluate? ⟨env, τ⟩ s := by
  unfold evaluate?
  cases hs : scan s with
  | error fault => rfl
  | ok ts =>
    cases ht : readTerm ts with
    | error fault => simp [ht, bind, Except.bind]
    | ok term =>
      simp only [ht, bind, Except.bind]
      apply value_congr
      intro leaf hx
      obtain ⟨t, hmem, ha⟩ := List.mem_filterMap.mp (readTerm_leaves ht hx)
      have hn : ts.any Lexeme.isSymbol = false := by simpa only [referencesSymbols, hs] using h
      exact atom_value_congr ha (by simpa using List.any_eq_false.mp hn t hmem) env σ τ

lemma referencesSymbols_fallback {s name fallback : List Char}
    (hs : splitFallback (trim s) = some (name, fallback)) (h : referencesSymbols s = false) :
    referencesSymbols fallback = false := by
  cases hf : scan fallback with
  | error fault => simp [referencesSymbols, hf]
  | ok ls => simpa [referencesSymbols, hf, scan_fallback hs hf, Lexeme.isSymbol] using h

lemma evaluatePlain_congr {s : List Char} (h : referencesSymbols s = false) (env : Environment)
    (σ τ : Mapping) : evaluatePlain ⟨env, σ⟩ s = evaluatePlain ⟨env, τ⟩ s := by
  simp only [evaluatePlain, evaluate?_congr h env σ τ]

lemma evaluate_congr {s : List Char} (h : referencesSymbols s = false) (env : Environment)
    (σ τ : Mapping) : evaluate ⟨env, σ⟩ s = evaluate ⟨env, τ⟩ s := by
  unfold evaluate
  cases hs : splitFallback (trim s) with
  | none => exact evaluatePlain_congr h env σ τ
  | some p =>
    obtain ⟨name, fallback⟩ := p
    have hf := referencesSymbols_fallback hs h
    simp only [evaluatePlain_congr hf env σ τ]

theorem safeEval_congr {text : String} (h : referencesSymbols text.toList = false)
    (env : Environment) (σ τ : Mapping) :
    safeEval ⟨env, σ⟩ text = safeEval ⟨env, τ⟩ text :=
  congrArg Evaluation.value (evaluate_congr h env σ τ)

def unreadableFallback : String := "$ENV.HOST || $name & 1"

theorem safeEval_congr_unreadable :
    referencesSymbols unreadableFallback.toList = false ∧
    safeEval ⟨.empty, [("name", .int 1)]⟩ unreadableFallback = .string "$name & 1" ∧
    safeEval ⟨.empty, [("name", .int 1)]⟩ unreadableFallback =
      safeEval ⟨.empty, []⟩ unreadableFallback := by
  have hunread : referencesSymbols unreadableFallback.toList = false := by cbv
  exact ⟨hunread, by cbv, safeEval_congr hunread .empty _ _⟩

end LayeredConfig.Formula
