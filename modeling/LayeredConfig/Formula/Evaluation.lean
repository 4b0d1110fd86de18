import LayeredConfig.Formula.Value

/-! Evaluation that never fails: a text without a value stands for itself. -/

namespace LayeredConfig.Formula

open Text

structure Evaluation where
  value : Node
  failure : Option (String × Fault)

def evaluatePlain (scope : Scope) (s : List Char) : Evaluation :=
  let text := String.ofList s
  if s.contains ':' then ⟨.string text, none⟩
  else
    match evaluate? scope s with
    | .ok n => ⟨n, none⟩
    | .error fault => ⟨.string text, some (text, fault)⟩

def splitFallback (s : List Char) : Option (List Char × List Char) := do
  let rest ← dropStart? ['$', 'E', 'N', 'V', '.'] s
  let name := rest.takeWhile isNameChar
  let fallback ← dropStart? ['|', '|'] (trimStart (rest.dropWhile isNameChar))
  if name.isEmpty || (trim fallback).isEmpty then none else some (name, trim fallback)

def filled? (e : Environment) (name : String) : Option Node :=
  match e.get? name with
  | some .null | some (.string "") => none
  | found => found

/-- A fallback is taken when its variable is unset, null or empty, and has no further fallback of
its own. -/
def evaluate (scope : Scope) (s : List Char) : Evaluation :=
  match splitFallback (trim s) with
  | none => evaluatePlain scope s
  | some (name, fallback) =>
    match filled? scope.environment (String.ofList name) with
    | some n => ⟨n, none⟩
    | none => evaluatePlain scope fallback

def safeEval (scope : Scope) (text : String) : Node := (evaluate scope text.toList).value

end LayeredConfig.Formula
