import LayeredConfig.Load.Pipeline
import LayeredConfig.Proofs.Node.Addresses
import LayeredConfig.Proofs.Resolution.Decisions

namespace LayeredConfig

namespace Node

section

variable (holds : String → Bool)

mutual

def pruned : Node → Node
  | .mapping fields => .mapping (prunedFields fields)
  | .sequence items => .sequence (prunedItems items)
  | .conditional condition value =>
    .conditional condition (if holds condition then value.pruned else .null)
  | n => n

def prunedItems : List Node → List Node
  | [] => []
  | item :: rest => item.pruned :: prunedItems rest

def prunedFields : List (String × Node) → List (String × Node)
  | [] => []
  | (key, value) :: rest => (key, value.pruned) :: prunedFields rest

end

end

variable {holds : String → Bool}

lemma prunedItems_eq_map (items : List Node) : prunedItems holds items = items.map (pruned holds) := by
  induction items with
  | nil => rfl
  | cons item rest ih => rw [prunedItems, ih, List.map_cons]

lemma prunedFields_insert (fields : Mapping) (key : String) (value : Node) :
    prunedFields holds (Fields.insert fields key value) =
      Fields.insert (prunedFields holds fields) key (value.pruned holds) := by
  induction fields with
  | nil => rfl
  | cons field rest ih =>
    obtain ⟨k, v⟩ := field
    rw [prunedFields, Fields.insert, Fields.insert]
    split_ifs
    · rw [prunedFields]
    · rw [prunedFields, ih]

lemma get?_prunedFields (fields : Mapping) (key : String) :
    Fields.get? (prunedFields holds fields) key = (Fields.get? fields key).map (pruned holds) := by
  induction fields with
  | nil => rfl
  | cons field rest ih =>
    obtain ⟨k, v⟩ := field
    rw [prunedFields, Fields.get?_cons, Fields.get?_cons, ih]
    split_ifs <;> rfl

mutual

lemma pruned_of_isResolved : (n : Node) → n.isResolved = true → n.pruned holds = n
  | .mapping fields, h => congrArg Node.mapping (prunedFields_of_resolved fields h)
  | .sequence items, h => congrArg Node.sequence (prunedItems_of_resolved items h)
  | .expression _, h | .tag _ _, h | .conditional _ _, h => by cases h
  | .null, _ | .bool _, _ | .int _, _ | .float _, _ | .string _, _ => rfl

lemma prunedItems_of_resolved : (items : List Node) → itemsResolved items = true →
    prunedItems holds items = items
  | [], _ => rfl
  | item :: rest, h => by
    obtain ⟨hitem, hrest⟩ := Bool.and_eq_true_iff.mp h
    rw [prunedItems, pruned_of_isResolved item hitem, prunedItems_of_resolved rest hrest]

lemma prunedFields_of_resolved : (fields : List (String × Node)) → fieldsResolved fields = true →
    prunedFields holds fields = fields
  | [], _ => rfl
  | (key, value) :: rest, h => by
    obtain ⟨hvalue, hrest⟩ := Bool.and_eq_true_iff.mp h
    rw [prunedFields, pruned_of_isResolved value hvalue, prunedFields_of_resolved rest hrest]

end

lemma pruned_withChild {n child other : Node} {step : Step} (hchild : n.child? step = some child)
    (h : other.pruned holds = child.pruned holds) :
    (n.withChild step other).pruned holds = n.pruned holds := by
  cases n with
  | mapping fields =>
    cases step with
    | field key =>
      have hget : Fields.get? (prunedFields holds fields) key = some (child.pruned holds) := by
        rw [get?_prunedFields, show Fields.get? fields key = some child from hchild, Option.map_some]
      rw [withChild, pruned, pruned, prunedFields_insert, h, Fields.insert_of_get? hget]
    | _ => cases hchild
  | sequence items =>
    cases step with
    | item index =>
      obtain ⟨hindex, rfl⟩ := List.getElem?_eq_some_iff.mp hchild
      rw [withChild, pruned, pruned, prunedItems_eq_map, prunedItems_eq_map, List.map_set, h,
        ← List.map_set, List.set_getElem_self]
    | _ => cases hchild
  | conditional condition value =>
    cases step with
    | value =>
      cases hchild
      rw [withChild, pruned, pruned, h]
    | _ => cases hchild
  | _ => cases step <;> cases hchild

lemma pruned_put {n old other : Node} {address : Address} (hat : n.at? address = some old)
    (h : other.pruned holds = old.pruned holds) :
    (n.put address other).pruned holds = n.pruned holds := by
  induction address generalizing n with
  | nil =>
    cases hat
    exact h
  | cons step rest ih =>
    obtain ⟨child, hchild, hrest⟩ := at?_cons.mp hat
    rw [put_cons hchild, pruned_withChild hchild (ih hrest)]

end Node

namespace Resolution

open Node

variable {ctx : Context} {symbols : Mapping}

lemma map_eq_self {α : Type} {run : Run α} {f : α → α}
    (h : ∀ a log log', run.run log = (.ok a, log') → f a = a) : f <$> run = run := by
  funext log
  have hlog := h
  change (f <$> run).run log = run.run log
  rw [map_eq_pure_bind]
  rcases hrun : run.run log with ⟨_ | a, log'⟩
  · exact run_bind_of_error hrun
  · rw [run_bind_of_ok hrun, h a log log' hrun]
    rfl

section

variable (h : ResolvedInputs ctx symbols)
include h

lemma resolveExpression_pruned (text : String) :
    pruned (ctx.holds symbols) <$> resolveExpression ctx.first text =
      resolveExpression ctx.first text := by
  rw [resolveExpression]
  split
  case isTrue => simp only [map_bind, map_pure, pruned]
  case isFalse hd =>
    have hresolved := evaluate_first_isResolved h (Bool.eq_false_iff.mpr hd)
    rw [evaluated_eq]
    simp only [map_bind, map_pure, pruned_of_isResolved _ hresolved]

lemma runTag_pruned (name : String) (args : List String) :
    pruned (ctx.holds symbols) <$> runTag ctx.first name args = runTag ctx.first name args :=
  map_eq_self fun n _ _ hrun => pruned_of_isResolved n (runTag_isResolved h hrun)

end

lemma keepIf_first_pruned {condition : String} {value : Node}
    (hvalue : resolve ctx.first (value.pruned (ctx.holds symbols)) =
      pruned (ctx.holds symbols) <$> resolve ctx.first value) :
    keepIf ctx.first condition
        (if ctx.holds symbols condition then value.pruned (ctx.holds symbols) else .null)
        (resolve ctx.first
          (if ctx.holds symbols condition then value.pruned (ctx.holds symbols) else .null)) =
      Option.map (pruned (ctx.holds symbols)) <$>
        keepIf ctx.first condition value (resolve ctx.first value) := by
  cases hd : ctx.first.defers condition with
  | true =>
    rw [keepIf_deferred hd, keepIf_deferred hd, map_bind]
    rfl
  | false =>
    rw [keepIf_first symbols hd, keepIf_first symbols hd, map_bind]
    split
    · rw [hvalue, Functor.map_map, Functor.map_map]
      rfl
    · rfl

mutual

lemma resolve_first_pruned (h : ResolvedInputs ctx symbols) : (n : Node) →
    resolve ctx.first (n.pruned (ctx.holds symbols)) =
      pruned (ctx.holds symbols) <$> resolve ctx.first n
  | .mapping fields => by
    have hfields := resolveFields_first_pruned h [] fields
    rw [prunedFields] at hfields
    rw [pruned, resolve_mapping, resolve_mapping, hfields, Functor.map_map, Functor.map_map]
    rfl
  | .sequence items => by
    rw [pruned, resolve_sequence, resolve_sequence, resolveItems_first_pruned h items,
      Functor.map_map, Functor.map_map]
    rfl
  | .expression text => (resolveExpression_pruned h text).symm
  | .tag name args => (runTag_pruned h name args).symm
  | .conditional condition value => by
    rw [pruned, resolve_conditional, resolve_conditional,
      keepIf_first_pruned (resolve_first_pruned h value), Functor.map_map, Functor.map_map]
    congr 1
    funext kept
    cases kept <;> rfl
  | .null | .bool _ | .int _ | .float _ | .string _ => rfl

lemma resolveItems_first_pruned (h : ResolvedInputs ctx symbols) : (items : List Node) →
    resolveItems ctx.first (prunedItems (ctx.holds symbols) items) =
      prunedItems (ctx.holds symbols) <$> resolveItems ctx.first items
  | [] => rfl
  | item :: rest => by
    have hitem := resolve_first_pruned h item
    have hrest := resolveItems_first_pruned h rest
    cases item with
    | conditional condition value =>
      rw [prunedItems, pruned, resolveItems_conditional, resolveItems_conditional,
        keepIf_first_pruned (resolve_first_pruned h value), hrest]
      simp only [map_bind, bind_map_left, Functor.map_map]
      congr 1
      funext kept
      cases kept <;> rfl
    | _ =>
      rw [prunedItems, resolveItems_cons (by simp [pruned, kind]), resolveItems_cons (by simp [kind]),
        hitem, hrest]
      simp [prunedItems]

lemma resolveFields_first_pruned (h : ResolvedInputs ctx symbols) (done : Mapping) :
    (fields : List (String × Node)) →
    resolveFields ctx.first (prunedFields (ctx.holds symbols) done)
        (prunedFields (ctx.holds symbols) fields) =
      prunedFields (ctx.holds symbols) <$> resolveFields ctx.first done fields
  | [] => rfl
  | (key, value) :: rest => by
    rw [prunedFields, resolveFields, resolveFields, resolve_first_pruned h value, bind_map_left,
      map_bind]
    congr 1
    funext n
    rw [← prunedFields_insert, resolveFields_first_pruned h _ rest]

end

lemma keepIf_second_pruned {condition : String} {value : Node}
    (hvalue : resolve (ctx.second symbols) (value.pruned (ctx.holds symbols)) =
      resolve (ctx.second symbols) value) :
    keepIf (ctx.second symbols) condition
        (if ctx.holds symbols condition then value.pruned (ctx.holds symbols) else .null)
        (resolve (ctx.second symbols)
          (if ctx.holds symbols condition then value.pruned (ctx.holds symbols) else .null)) =
      keepIf (ctx.second symbols) condition value (resolve (ctx.second symbols) value) := by
  rw [keepIf_second, keepIf_second]
  split
  · rw [hvalue]
  · rfl

mutual

lemma resolve_second_pruned : (n : Node) →
    resolve (ctx.second symbols) (n.pruned (ctx.holds symbols)) = resolve (ctx.second symbols) n
  | .mapping fields => by
    rw [pruned, resolve_mapping, resolve_mapping, resolveFields_second_pruned]
  | .sequence items => by
    rw [pruned, resolve_sequence, resolve_sequence, resolveItems_second_pruned]
  | .conditional condition value => by
    rw [pruned, resolve_conditional, resolve_conditional,
      keepIf_second_pruned (resolve_second_pruned value)]
  | .expression _ | .tag _ _ | .null | .bool _ | .int _ | .float _ | .string _ => rfl

lemma resolveItems_second_pruned : (items : List Node) →
    resolveItems (ctx.second symbols) (prunedItems (ctx.holds symbols) items) =
      resolveItems (ctx.second symbols) items
  | [] => rfl
  | item :: rest => by
    have hitem := resolve_second_pruned item
    have hrest := resolveItems_second_pruned rest
    cases item with
    | conditional condition value =>
      rw [prunedItems, pruned, resolveItems_conditional, resolveItems_conditional,
        keepIf_second_pruned (resolve_second_pruned value), hrest]
    | _ =>
      rw [prunedItems, resolveItems_cons (by simp [pruned, kind]), resolveItems_cons (by simp [kind]),
        hitem, hrest]

lemma resolveFields_second_pruned (done : Mapping) : (fields : List (String × Node)) →
    resolveFields (ctx.second symbols) done (prunedFields (ctx.holds symbols) fields) =
      resolveFields (ctx.second symbols) done fields
  | [] => rfl
  | (key, value) :: rest => by
    rw [prunedFields, resolveFields, resolveFields, resolve_second_pruned value]
    congr 1
    funext n
    rw [resolveFields_second_pruned _ rest]

end

lemma resolveTwice_pruned (h : ResolvedInputs ctx symbols) (doc : Node) :
    Load.resolveTwice ctx symbols (doc.pruned (ctx.holds symbols)) =
      Load.resolveTwice ctx symbols doc := by
  rw [Load.resolveTwice, Load.resolveTwice, resolve_first_pruned h doc, bind_map_left]
  congr 1
  funext n
  exact resolve_second_pruned n

lemma resolveTwice_put (h : ResolvedInputs ctx symbols) {doc value : Node} {address : Address}
    {condition : String} (hat : doc.at? address = some (.conditional condition value))
    (hdropped : ctx.holds symbols condition = false) (other : Node) :
    Load.resolveTwice ctx symbols (doc.put address (.conditional condition other)) =
      Load.resolveTwice ctx symbols doc := by
  have hsame : pruned (ctx.holds symbols) (.conditional condition other) =
      pruned (ctx.holds symbols) (.conditional condition value) := by
    rw [pruned, pruned, hdropped]
    rfl
  rw [← resolveTwice_pruned h, pruned_put hat hsame, resolveTwice_pruned h]

end Resolution

end LayeredConfig
