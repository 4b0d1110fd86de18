import LayeredConfig.Node.View
import LayeredConfig.Proofs.Node.Everywhere

namespace LayeredConfig.Node

inductive Within (root : Node) : Node → Prop where
  | here : Within root root
  | field {fields : List (String × Node)} {key : String} {value : Node}
      (h : Within root (.mapping fields)) (hm : (key, value) ∈ fields) : Within root value
  | item {items : List Node} {item : Node} (h : Within root (.sequence items))
      (hm : item ∈ items) : Within root item
  | branch {condition : String} {value : Node} (h : Within root (.conditional condition value)) :
      Within root value

variable {root n m : Node} {p : Node → Prop}

lemma Within.trans (h : Within root n) (hn : Within n m) : Within root m := by
  induction hn with
  | here => exact h
  | field _ hm ih => exact ih.field hm
  | item _ hm ih => exact ih.item hm
  | branch _ ih => exact ih.branch

lemma descend_cons_eq_some {n value : Node} {key : String} {path : List String} :
    n.descend (key :: path) = some value ↔ ∃ fields inner, n = .mapping fields ∧
      Fields.get? fields key = some inner ∧ inner.descend path = some value := by
  constructor
  · intro h
    obtain ⟨inner, hinner, hvalue⟩ := Option.bind_eq_some_iff.mp h
    cases n with
    | mapping fields => exact ⟨fields, inner, rfl, hinner, hvalue⟩
    | _ => cases hinner
  · rintro ⟨fields, inner, rfl, hinner, hvalue⟩
    exact Option.bind_eq_some_iff.mpr ⟨inner, hinner, hvalue⟩

lemma within_of_descend {keys : List String} (h : root.descend keys = some n) : Within root n := by
  induction keys generalizing root with
  | nil =>
    cases h
    exact .here
  | cons key rest ih =>
    obtain ⟨fields, inner, rfl, hinner, hrest⟩ := descend_cons_eq_some.mp h
    exact (Within.here.field (Fields.mem_of_get? hinner)).trans (ih hrest)

lemma Everywhere.here (h : n.Everywhere p) : p n := by
  cases n with
  | mapping | sequence | conditional => exact h.1
  | _ => exact h

lemma fieldsEverywhere_iff {fields : List (String × Node)} :
    FieldsEverywhere p fields ↔ ∀ field ∈ fields, field.2.Everywhere p := by
  induction fields with
  | nil => simp [FieldsEverywhere]
  | cons field rest ih => rw [FieldsEverywhere, ih, List.forall_mem_cons]

lemma itemsEverywhere_iff {items : List Node} :
    ItemsEverywhere p items ↔ ∀ item ∈ items, item.Everywhere p := by
  induction items with
  | nil => simp [ItemsEverywhere]
  | cons item rest ih => rw [ItemsEverywhere, ih, List.forall_mem_cons]

lemma Everywhere.within (h : root.Everywhere p) (hn : Within root n) : n.Everywhere p := by
  induction hn with
  | here => exact h
  | field _ hm ih => exact fieldsEverywhere_iff.mp ih.2 _ hm
  | item _ hm ih => exact itemsEverywhere_iff.mp ih.2 _ hm
  | branch _ ih => exact ih.2

mutual

lemma everywhere_of_within : (n : Node) → (∀ m, Within n m → p m) → n.Everywhere p
  | .mapping fields, h => ⟨h _ .here, fieldsEverywhere_of_within fields fun _ hm m hvalue =>
      h m ((Within.here.field hm).trans hvalue)⟩
  | .sequence items, h => ⟨h _ .here, itemsEverywhere_of_within items fun _ hm m hitem =>
      h m ((Within.here.item hm).trans hitem)⟩
  | .conditional _ value, h => ⟨h _ .here, everywhere_of_within value fun m hvalue =>
      h m (Within.here.branch.trans hvalue)⟩
  | .null, h | .bool _, h | .int _, h | .float _, h | .string _, h | .expression _, h
  | .tag _ _, h => h _ .here

lemma fieldsEverywhere_of_within : (fields : List (String × Node)) →
    (∀ field ∈ fields, ∀ m, Within field.2 m → p m) → FieldsEverywhere p fields
  | [], _ => trivial
  | (_, value) :: rest, h => by
    rw [List.forall_mem_cons] at h
    exact ⟨everywhere_of_within value h.1, fieldsEverywhere_of_within rest h.2⟩

lemma itemsEverywhere_of_within : (items : List Node) →
    (∀ item ∈ items, ∀ m, Within item m → p m) → ItemsEverywhere p items
  | [], _ => trivial
  | item :: rest, h => by
    rw [List.forall_mem_cons] at h
    exact ⟨everywhere_of_within item h.1, itemsEverywhere_of_within rest h.2⟩

end

def Marker : Node → Prop
  | .expression _ | .tag _ _ | .conditional _ _ => True
  | _ => False

lemma fieldsResolved_iff {fields : List (String × Node)} :
    fieldsResolved fields = true ↔ ∀ field ∈ fields, field.2.isResolved = true := by
  induction fields with
  | nil => simp [fieldsResolved]
  | cons field rest ih => rw [fieldsResolved, Bool.and_eq_true, List.forall_mem_cons, ih]

lemma itemsResolved_iff {items : List Node} :
    itemsResolved items = true ↔ ∀ item ∈ items, item.isResolved = true := by
  induction items with
  | nil => simp [itemsResolved]
  | cons item rest ih => rw [itemsResolved, Bool.and_eq_true, List.forall_mem_cons, ih]

lemma isResolved_within (h : root.isResolved = true) (hn : Within root n) : n.isResolved = true := by
  induction hn with
  | here => exact h
  | field _ hm ih => exact fieldsResolved_iff.mp ih _ hm
  | item _ hm ih => exact itemsResolved_iff.mp ih _ hm
  | branch _ ih => cases ih

mutual

lemma isResolved_of_unmarked : (n : Node) → (∀ m, Within n m → ¬ Marker m) → n.isResolved = true
  | .mapping fields, h => fieldsResolved_of_unmarked fields fun _ hm m hvalue =>
      h m ((Within.here.field hm).trans hvalue)
  | .sequence items, h => itemsResolved_of_unmarked items fun _ hm m hitem =>
      h m ((Within.here.item hm).trans hitem)
  | .expression _, h | .tag _ _, h | .conditional _ _, h => absurd trivial (h _ .here)
  | .null, _ | .bool _, _ | .int _, _ | .float _, _ | .string _, _ => rfl

lemma fieldsResolved_of_unmarked : (fields : List (String × Node)) →
    (∀ field ∈ fields, ∀ m, Within field.2 m → ¬ Marker m) → fieldsResolved fields = true
  | [], _ => rfl
  | (_, value) :: rest, h => by
    rw [List.forall_mem_cons] at h
    exact Bool.and_eq_true_iff.mpr
      ⟨isResolved_of_unmarked value h.1, fieldsResolved_of_unmarked rest h.2⟩

lemma itemsResolved_of_unmarked : (items : List Node) →
    (∀ item ∈ items, ∀ m, Within item m → ¬ Marker m) → itemsResolved items = true
  | [], _ => rfl
  | item :: rest, h => by
    rw [List.forall_mem_cons] at h
    exact Bool.and_eq_true_iff.mpr
      ⟨isResolved_of_unmarked item h.1, itemsResolved_of_unmarked rest h.2⟩

end

lemma isResolved_iff : n.isResolved = true ↔ ∀ m, Within n m → ¬ Marker m := by
  constructor
  · intro h m hm hmarker
    have hresolved := isResolved_within h hm
    cases m with
    | expression | tag | conditional => cases hresolved
    | _ => cases hmarker
  · exact isResolved_of_unmarked n

lemma isResolved_of_settled (h : n.Settled) : n.isResolved = true := by
  rw [isResolved_iff]
  intro m hm hmarker
  have hsettled := (h.within hm).here
  cases m with
  | expression | tag | conditional => cases hsettled
  | _ => cases hmarker

end LayeredConfig.Node
