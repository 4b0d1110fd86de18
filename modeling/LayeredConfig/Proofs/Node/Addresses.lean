import LayeredConfig.Proofs.Node.Within

namespace LayeredConfig.Node

inductive Step where
  | field (key : String)
  | item (index : Nat)
  | value
  deriving Repr, DecidableEq

abbrev Address := List Step

def child? : Node → Step → Option Node
  | .mapping fields, .field key => Fields.get? fields key
  | .sequence items, .item index => items[index]?
  | .conditional _ value, .value => some value
  | _, _ => none

def at? : Node → Address → Option Node
  | n, [] => some n
  | n, step :: rest => (n.child? step).bind (·.at? rest)

def condition? : Node → Option String
  | .conditional condition _ => some condition
  | _ => none

def conditionsTo : Node → Address → List String
  | _, [] => []
  | n, step :: rest => n.condition?.toList ++ (n.child? step).elim [] (·.conditionsTo rest)

def withChild : Node → Step → Node → Node
  | .mapping fields, .field key, child => .mapping (Fields.insert fields key child)
  | .sequence items, .item index, child => .sequence (items.set index child)
  | .conditional condition _, .value, child => .conditional condition child
  | n, _, _ => n

def put : Node → Address → Node → Node
  | _, [], other => other
  | n, step :: rest, other =>
    (n.child? step).elim n fun child => n.withChild step (child.put rest other)

variable {n m : Node} {step : Step} {rest : Address}

lemma at?_cons : n.at? (step :: rest) = some m ↔
    ∃ child, n.child? step = some child ∧ child.at? rest = some m :=
  Option.bind_eq_some_iff

lemma at?_append (n : Node) (address more : Address) :
    n.at? (address ++ more) = (n.at? address).bind (·.at? more) := by
  induction address generalizing n with
  | nil => rfl
  | cons step rest ih =>
    rw [List.cons_append, at?, at?]
    cases n.child? step with
    | none => rfl
    | some child => exact ih child

lemma conditionsTo_cons {child : Node} (h : n.child? step = some child) :
    n.conditionsTo (step :: rest) = n.condition?.toList ++ child.conditionsTo rest := by
  rw [conditionsTo, h, Option.elim_some]

lemma put_cons {child : Node} (h : n.child? step = some child) (other : Node) :
    n.put (step :: rest) other = n.withChild step (child.put rest other) := by
  rw [put, h, Option.elim_some]

lemma Everywhere.child {p : Node → Prop} (h : n.Everywhere p) {child : Node}
    (hchild : n.child? step = some child) : child.Everywhere p := by
  cases n with
  | mapping fields =>
    cases step with
    | field key => exact fieldsEverywhere_iff.mp h.2 _ (Fields.mem_of_get? hchild)
    | _ => cases hchild
  | sequence items =>
    cases step with
    | item index => exact itemsEverywhere_iff.mp h.2 _ (List.mem_of_getElem? hchild)
    | _ => cases hchild
  | conditional condition value =>
    cases step with
    | value =>
      cases hchild
      exact h.2
    | _ => cases hchild
  | _ => cases step <;> cases hchild

lemma Everywhere.at {p : Node → Prop} {address : Address} (h : n.Everywhere p)
    (hat : n.at? address = some m) : m.Everywhere p := by
  induction address generalizing n with
  | nil =>
    cases hat
    exact h
  | cons step rest ih =>
    obtain ⟨child, hchild, hrest⟩ := at?_cons.mp hat
    exact ih (h.child hchild) hrest

end LayeredConfig.Node
