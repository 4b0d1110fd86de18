import LayeredConfig.Proofs.Node.Addresses

namespace LayeredConfig.Node

structure Invocation where
  name : String
  args : List String
  deriving Repr, DecidableEq

structure Occurrence extends Invocation where
  address : Address
  conditions : List String
  deriving Repr, DecidableEq

def Occurrence.lift (condition : Option String) (step : Step) (o : Occurrence) : Occurrence :=
  { o with address := step :: o.address, conditions := condition.toList ++ o.conditions }

mutual

def tags : Node → List Occurrence
  | .mapping fields => fieldsTags fields
  | .sequence items => itemsTags 0 items
  | .tag name args => [⟨⟨name, args⟩, [], []⟩]
  | .conditional condition value => value.tags.map (·.lift (some condition) .value)
  | _ => []

def itemsTags (start : Nat) : List Node → List Occurrence
  | [] => []
  | item :: rest => item.tags.map (·.lift none (.item start)) ++ itemsTags (start + 1) rest

def fieldsTags : List (String × Node) → List Occurrence
  | [] => []
  | (key, value) :: rest => value.tags.map (·.lift none (.field key)) ++ fieldsTags rest

end

lemma mem_itemsTags {start : Nat} {items : List Node} {o : Occurrence} :
    o ∈ itemsTags start items ↔ ∃ (index : Nat) (item : Node), items[index]? = some item ∧
      ∃ inner ∈ item.tags, inner.lift none (.item (start + index)) = o := by
  induction items generalizing start with
  | nil => simp [itemsTags]
  | cons first rest ih =>
    have hshift : ∀ index, start + 1 + index = start + (index + 1) := fun index => by omega
    simp only [itemsTags, List.mem_append, List.mem_map, ih, hshift]
    constructor
    · rintro (hfirst | ⟨index, item, hitem, hbelow⟩)
      · exact ⟨0, first, rfl, hfirst⟩
      · exact ⟨index + 1, item, hitem, hbelow⟩
    · rintro ⟨_ | index, item, hitem, hbelow⟩
      · cases hitem
        exact .inl hbelow
      · exact .inr ⟨index, item, hitem, hbelow⟩

lemma mem_fieldsTags {fields : List (String × Node)} (h : (Fields.keys fields).Nodup)
    {o : Occurrence} :
    o ∈ fieldsTags fields ↔ ∃ key value, Fields.get? fields key = some value ∧
      ∃ inner ∈ value.tags, inner.lift none (.field key) = o := by
  induction fields with
  | nil => simp [fieldsTags, Fields.get?]
  | cons field rest ih =>
    obtain ⟨first, n⟩ := field
    obtain ⟨hfirst, hrest⟩ := List.nodup_cons.mp h
    rw [fieldsTags, List.mem_append, List.mem_map, ih hrest]
    constructor
    · rintro (hn | ⟨key, value, hget, hbelow⟩)
      · exact ⟨first, n, by rw [Fields.get?_cons, if_pos rfl], hn⟩
      · have hkey : key ≠ first := by
          rintro rfl
          have hmem : key ∈ Fields.keys rest := List.mem_map_of_mem (Fields.mem_of_get? hget)
          exact hfirst hmem
        exact ⟨key, value, by rwa [Fields.get?_cons, if_neg hkey], hbelow⟩
    · rintro ⟨key, value, hget, hbelow⟩
      rw [Fields.get?_cons] at hget
      split_ifs at hget with hkey
      · cases hget
        subst hkey
        exact .inl hbelow
      · exact .inr ⟨key, value, hget, hbelow⟩

lemma mem_tags {n : Node} (h : n.Everywhere ApartHere) {o : Occurrence} :
    o ∈ n.tags ↔ (n = .tag o.name o.args ∧ o.address = [] ∧ o.conditions = []) ∨
      ∃ step child, n.child? step = some child ∧
        ∃ inner ∈ child.tags, inner.lift n.condition? step = o := by
  cases n with
  | mapping fields =>
    rw [tags, mem_fieldsTags h.1.distinct]
    constructor
    · rintro ⟨key, value, hget, hbelow⟩
      exact .inr ⟨.field key, value, hget, hbelow⟩
    · rintro (⟨heq, -⟩ | ⟨step, child, hchild, hbelow⟩)
      · cases heq
      · cases step with
        | field key => exact ⟨key, child, hchild, hbelow⟩
        | _ => cases hchild
  | sequence items =>
    rw [tags, mem_itemsTags]
    simp only [Nat.zero_add]
    constructor
    · rintro ⟨index, item, hitem, hbelow⟩
      exact .inr ⟨.item index, item, hitem, hbelow⟩
    · rintro (⟨heq, -⟩ | ⟨step, child, hchild, hbelow⟩)
      · cases heq
      · cases step with
        | item index => exact ⟨index, child, hchild, hbelow⟩
        | _ => cases hchild
  | conditional condition value =>
    rw [tags, List.mem_map]
    constructor
    · exact fun hbelow => .inr ⟨.value, value, rfl, hbelow⟩
    · rintro (⟨heq, -⟩ | ⟨step, child, hchild, hbelow⟩)
      · cases heq
      · cases step with
        | value =>
          cases hchild
          exact hbelow
        | _ => cases hchild
  | tag name args =>
    rw [tags, List.mem_singleton]
    constructor
    · rintro rfl
      exact .inl ⟨rfl, rfl, rfl⟩
    · obtain ⟨⟨name', args'⟩, address, conditions⟩ := o
      rintro (⟨heq, rfl, rfl⟩ | ⟨step, child, hchild, -⟩)
      · cases heq
        rfl
      · cases step <;> cases hchild
  | _ =>
    constructor
    · exact fun hm => absurd hm List.not_mem_nil
    · rintro (⟨heq, -⟩ | ⟨step, child, hchild, -⟩)
      · cases heq
      · cases step <;> cases hchild

lemma mem_tags_iff {n : Node} (h : n.Everywhere ApartHere) {o : Occurrence} :
    o ∈ n.tags ↔ n.at? o.address = some (.tag o.name o.args) ∧
      o.conditions = n.conditionsTo o.address := by
  obtain ⟨⟨name, args⟩, address, conditions⟩ := o
  induction address generalizing n conditions with
  | nil =>
    rw [mem_tags h]
    constructor
    · rintro (⟨rfl, -, rfl⟩ | ⟨_, _, -, inner, -, heq⟩)
      · exact ⟨rfl, rfl⟩
      · cases congrArg Occurrence.address heq
    · rintro ⟨hat, hconditions⟩
      exact .inl ⟨Option.some.inj hat, rfl, hconditions⟩
  | cons step rest ih =>
    rw [mem_tags h]
    constructor
    · rintro (⟨-, heq, -⟩ | ⟨_, child, hchild, ⟨⟨_, _⟩, below, inner⟩, hinner, heq⟩)
      · cases heq
      · cases heq
        obtain ⟨hat, hconditions⟩ := (ih (h.child hchild) inner).mp hinner
        exact ⟨at?_cons.mpr ⟨child, hchild, hat⟩,
          (congrArg _ hconditions).trans (conditionsTo_cons hchild).symm⟩
    · rintro ⟨hat, hconditions⟩
      obtain ⟨child, hchild, hrest⟩ := at?_cons.mp hat
      have hinner := (ih (h.child hchild) (child.conditionsTo rest)).mpr ⟨hrest, rfl⟩
      refine .inr ⟨step, child, hchild, _, hinner, ?_⟩
      rw [Occurrence.lift, ← conditionsTo_cons hchild]
      exact congrArg (Occurrence.mk _ _) hconditions.symm

lemma addresses_below {occurrences : List Occurrence} {condition : Option String} {step : Step} :
    (occurrences.map (·.lift condition step)).map (·.address) =
      (occurrences.map (·.address)).map (step :: ·) := by
  rw [List.map_map, List.map_map]
  rfl

mutual

lemma nodup_tags : (n : Node) → n.Everywhere ApartHere → (n.tags.map (·.address)).Nodup
  | .mapping fields, h => nodup_fieldsTags fields h.1.distinct h.2
  | .sequence items, h => nodup_itemsTags 0 items h.2
  | .conditional condition value, h => by
    rw [tags, addresses_below]
    exact (nodup_tags value h.2).map List.cons_injective
  | .tag _ _, _ => List.nodup_singleton _
  | .null, _ | .bool _, _ | .int _, _ | .float _, _ | .string _, _ | .expression _, _ =>
    List.nodup_nil

lemma nodup_itemsTags (start : Nat) : (items : List Node) → ItemsEverywhere ApartHere items →
    ((itemsTags start items).map (·.address)).Nodup
  | [], _ => List.nodup_nil
  | item :: rest, h => by
    rw [itemsTags, List.map_append, addresses_below, List.nodup_append]
    refine ⟨(nodup_tags item h.1).map List.cons_injective, nodup_itemsTags _ rest h.2, ?_⟩
    rintro _ hfirst _ hlater rfl
    obtain ⟨address, -, rfl⟩ := List.mem_map.mp hfirst
    obtain ⟨o, ho, heq⟩ := List.mem_map.mp hlater
    obtain ⟨index, _, -, inner, -, rfl⟩ := mem_itemsTags.mp ho
    obtain ⟨hindex, -⟩ := List.cons.inj heq
    have hindex := Step.item.inj hindex
    omega

lemma nodup_fieldsTags : (fields : List (String × Node)) → (Fields.keys fields).Nodup →
    FieldsEverywhere ApartHere fields → ((fieldsTags fields).map (·.address)).Nodup
  | [], _, _ => List.nodup_nil
  | (key, value) :: rest, hkeys, h => by
    obtain ⟨hkey, hrest⟩ := List.nodup_cons.mp hkeys
    rw [fieldsTags, List.map_append, addresses_below, List.nodup_append]
    refine ⟨(nodup_tags value h.1).map List.cons_injective, nodup_fieldsTags rest hrest h.2, ?_⟩
    rintro _ hfirst _ hlater rfl
    obtain ⟨address, -, rfl⟩ := List.mem_map.mp hfirst
    obtain ⟨o, ho, heq⟩ := List.mem_map.mp hlater
    obtain ⟨other, _, hget, inner, -, rfl⟩ := (mem_fieldsTags hrest).mp ho
    obtain ⟨hother, -⟩ := List.cons.inj heq
    cases hother
    have hmem : key ∈ Fields.keys rest := List.mem_map_of_mem (Fields.mem_of_get? hget)
    exact hkey hmem

end

mutual

lemma tags_of_isResolved : (n : Node) → n.isResolved = true → n.tags = []
  | .mapping fields, h => fieldsTags_of_resolved fields h
  | .sequence items, h => itemsTags_of_resolved 0 items h
  | .expression _, h | .tag _ _, h | .conditional _ _, h => by cases h
  | .null, _ | .bool _, _ | .int _, _ | .float _, _ | .string _, _ => rfl

lemma itemsTags_of_resolved (start : Nat) : (items : List Node) → itemsResolved items = true →
    itemsTags start items = []
  | [], _ => rfl
  | item :: rest, h => by
    obtain ⟨hitem, hrest⟩ := Bool.and_eq_true_iff.mp h
    rw [itemsTags, tags_of_isResolved item hitem, itemsTags_of_resolved _ rest hrest]
    rfl

lemma fieldsTags_of_resolved : (fields : List (String × Node)) → fieldsResolved fields = true →
    fieldsTags fields = []
  | [], _ => rfl
  | (key, value) :: rest, h => by
    obtain ⟨hvalue, hrest⟩ := Bool.and_eq_true_iff.mp h
    rw [fieldsTags, tags_of_isResolved value hvalue, fieldsTags_of_resolved rest hrest]
    rfl

end

end LayeredConfig.Node
