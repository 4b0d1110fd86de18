import LayeredConfig.Fields
import Mathlib.Data.List.Nodup

namespace LayeredConfig.Fields

variable {α : Type}

lemma insert_of_not_mem {fields : Fields α} {key : String} (h : key ∉ keys fields) (value : α) :
    insert fields key value = fields ++ [(key, value)] := by
  induction fields with
  | nil => rfl
  | cons field rest ih =>
    obtain ⟨k, v⟩ := field
    simp only [keys, List.map_cons, List.mem_cons, not_or] at h
    simp [insert, Ne.symm h.1, ih h.2]

lemma insert_append_of_not_mem {front : Fields α} {key : String} (h : key ∉ keys front)
    (rest : Fields α) (value : α) :
    insert (front ++ rest) key value = front ++ insert rest key value := by
  induction front with
  | nil => rfl
  | cons field tail ih =>
    obtain ⟨k, v⟩ := field
    obtain ⟨hk, htail⟩ := not_or.mp (mt List.mem_cons.mpr h)
    rw [List.cons_append, insert, if_neg (Ne.symm hk), ih htail, List.cons_append]

lemma insert_insert (fields : Fields α) (key : String) (old value : α) :
    insert (insert fields key old) key value = insert fields key value := by
  induction fields with
  | nil => simp [insert]
  | cons field rest ih =>
    obtain ⟨k, v⟩ := field
    by_cases h : k = key
    · simp [insert, h]
    · simp [insert, h, ih]

lemma get?_cons (key other : String) (value : α) (rest : Fields α) :
    get? ((key, value) :: rest) other = if other = key then some value else get? rest other := by
  rw [get?, List.lookup_cons]
  by_cases h : other = key
  · simp [h]
  · simp [h, beq_eq_false_iff_ne.mpr h, get?]

lemma get?_insert (fields : Fields α) (key other : String) (value : α) :
    get? (insert fields key value) other = if other = key then some value else get? fields other := by
  induction fields with
  | nil => rw [insert, get?_cons]
  | cons field rest ih =>
    obtain ⟨k, v⟩ := field
    by_cases hk : k = key
    · subst hk
      by_cases h : other = k <;> simp [insert, get?_cons, h]
    · rw [insert, if_neg hk, get?_cons, get?_cons, ih]
      by_cases h : other = k
      · simp [h, hk]
      · simp [h]

lemma insert_of_get? {fields : Fields α} {key : String} {value : α}
    (h : get? fields key = some value) : insert fields key value = fields := by
  induction fields with
  | nil => cases h
  | cons field rest ih =>
    obtain ⟨k, v⟩ := field
    rw [get?_cons] at h
    rw [insert]
    by_cases hk : k = key
    · rw [if_pos hk.symm] at h
      cases h
      rw [if_pos hk, hk]
    · rw [if_neg (Ne.symm hk)] at h
      rw [if_neg hk, ih h]

lemma insertAll_cons (fields : Fields α) (field : String × α) (more : Fields α) :
    insertAll fields (field :: more) = insertAll (insert fields field.1 field.2) more := rfl

lemma mem_insert {fields : Fields α} {key : String} {value : α} {field : String × α}
    (h : field ∈ insert fields key value) : field = (key, value) ∨ field ∈ fields := by
  induction fields with
  | nil => exact .inl (List.mem_singleton.mp h)
  | cons first rest ih =>
    obtain ⟨k, v⟩ := first
    rw [insert] at h
    split at h
    · exact (List.mem_cons.mp h).imp_right (List.mem_cons_of_mem _)
    · obtain rfl | h := List.mem_cons.mp h
      · exact .inr List.mem_cons_self
      · exact (ih h).imp_right (List.mem_cons_of_mem _)

lemma mem_insertAll {fields more : Fields α} {field : String × α}
    (h : field ∈ insertAll fields more) : field ∈ fields ∨ field ∈ more := by
  induction more generalizing fields with
  | nil => exact .inl h
  | cons first rest ih =>
    rw [insertAll_cons] at h
    obtain h | h := ih h
    · obtain rfl | h := mem_insert h
      · exact .inr List.mem_cons_self
      · exact .inl h
    · exact .inr (List.mem_cons_of_mem _ h)

lemma exists_get?_insertAll {fields more : Fields α} {key : String}
    (h : key ∈ keys more ∨ ∃ value, get? fields key = some value) :
    ∃ value, get? (insertAll fields more) key = some value := by
  induction more generalizing fields with
  | nil => exact h.resolve_left List.not_mem_nil
  | cons field rest ih =>
    rw [insertAll_cons]
    refine ih ?_
    rw [get?_insert]
    by_cases hkey : key = field.1
    · exact .inr ⟨field.2, if_pos hkey⟩
    · obtain h | h := h
      · obtain h | h := List.mem_cons.mp h
        · exact absurd h hkey
        · exact .inl h
      · exact .inr (by rwa [if_neg hkey])

lemma mem_of_get? {fields : Fields α} {key : String} {value : α}
    (h : get? fields key = some value) : (key, value) ∈ fields := by
  obtain ⟨before, after, rfl, -⟩ := List.lookup_eq_some_iff.mp h
  simp

lemma get?_of_mem {fields : Fields α} (h : (keys fields).Nodup) {key : String} {value : α}
    (hm : (key, value) ∈ fields) : get? fields key = some value := by
  induction fields with
  | nil => cases hm
  | cons field rest ih =>
    obtain ⟨k, v⟩ := field
    obtain ⟨hk, hrest⟩ := List.nodup_cons.mp h
    rw [get?_cons]
    obtain heq | hmem := List.mem_cons.mp hm
    · cases heq
      rw [if_pos rfl]
    · have hne : key ≠ k := by
        rintro rfl
        have hkey : key ∈ keys rest := List.mem_map_of_mem hmem
        exact hk hkey
      rw [if_neg hne, ih hrest hmem]

lemma insertAll_of_nodup {fields more : Fields α} (h : (keys fields ++ keys more).Nodup) :
    insertAll fields more = fields ++ more := by
  induction more generalizing fields with
  | nil => exact (List.append_nil fields).symm
  | cons field rest ih =>
    obtain ⟨key, value⟩ := field
    have hkey : key ∉ keys fields := by
      intro hm
      exact (List.nodup_append.mp h).2.2 key hm key List.mem_cons_self rfl
    have hnext : (keys (fields ++ [(key, value)]) ++ keys rest).Nodup := by
      simpa [keys] using h
    rw [insertAll_cons, insert_of_not_mem hkey, ih hnext, List.append_assoc, List.singleton_append]

lemma get?_eq_none_iff {fields : Fields α} {key : String} :
    get? fields key = none ↔ key ∉ keys fields := by
  rw [get?, List.lookup_eq_none_iff, keys, List.mem_map]
  constructor
  · rintro h ⟨field, hfield, rfl⟩
    exact absurd (h field hfield) (by simp)
  · intro h field hfield
    exact bne_iff_ne.mpr fun heq => h ⟨field, hfield, heq.symm⟩

lemma keys_insert (fields : Fields α) (key : String) (value : α) :
    keys (insert fields key value) =
      if key ∈ keys fields then keys fields else keys fields ++ [key] := by
  by_cases h : key ∈ keys fields
  · rw [if_pos h]
    induction fields with
    | nil => exact absurd h List.not_mem_nil
    | cons field rest ih =>
      obtain ⟨k, v⟩ := field
      rw [insert]
      split_ifs with hk
      · rw [← hk]
        rfl
      · have hrest : key ∈ keys rest := (List.mem_cons.mp h).resolve_left (Ne.symm hk)
        exact congrArg (k :: ·) (ih hrest)
  · rw [if_neg h, insert_of_not_mem h]
    exact List.map_append

lemma nodup_insert {fields : Fields α} (h : (keys fields).Nodup) (key : String) (value : α) :
    (keys (insert fields key value)).Nodup := by
  rw [keys_insert]
  split_ifs with hkey
  · exact h
  · exact List.nodup_append_comm.mp (List.nodup_cons.mpr ⟨hkey, h⟩)

lemma length_le_insert (fields : Fields α) (key : String) (value : α) :
    fields.length ≤ (insert fields key value).length := by
  induction fields with
  | nil => exact Nat.zero_le _
  | cons field rest ih =>
    obtain ⟨k, v⟩ := field
    rw [insert]
    split_ifs
    · exact Nat.le_refl _
    · exact Nat.succ_le_succ ih

lemma get?_erase (fields : Fields α) (key other : String) :
    get? (erase fields key) other = if other = key then none else get? fields other := by
  induction fields with
  | nil => simp [erase, get?]
  | cons field rest ih =>
    obtain ⟨k, v⟩ := field
    rw [erase, List.filter_cons] at *
    by_cases hk : k = key
    · subst hk
      simp only [bne_self_eq_false, Bool.false_eq_true, if_false, ih, get?_cons]
      split_ifs <;> rfl
    · simp only [bne_iff_ne.mpr hk, if_true, get?_cons, ih]
      split_ifs with hother hsame
      · exact absurd (hother.symm.trans hsame) hk
      · rfl
      · rfl
      · rfl

lemma nodup_erase {fields : Fields α} (h : (keys fields).Nodup) (key : String) :
    (keys (erase fields key)).Nodup :=
  h.sublist (List.filter_sublist.map _)

lemma ext_of_nodup {fields others : Fields α} (hnodup : (keys fields).Nodup)
    (hkeys : keys fields = keys others) (hget : ∀ key, get? fields key = get? others key) :
    fields = others := by
  induction fields generalizing others with
  | nil => exact (List.map_eq_nil_iff.mp hkeys.symm).symm
  | cons field rest ih =>
    obtain ⟨key, value⟩ := field
    obtain _ | ⟨⟨key', value'⟩, rest'⟩ := others
    · cases hkeys
    obtain ⟨rfl, hrest⟩ : key = key' ∧ keys rest = keys rest' := List.cons.inj hkeys
    obtain ⟨hfirst, hnodup⟩ := List.nodup_cons.mp hnodup
    have hvalue := hget key
    rw [get?_cons, get?_cons, if_pos rfl, if_pos rfl] at hvalue
    cases hvalue
    rw [ih hnodup hrest]
    intro other
    have hother := hget other
    rw [get?_cons, get?_cons] at hother
    by_cases heq : other = key
    · subst heq
      rw [get?_eq_none_iff.mpr hfirst, get?_eq_none_iff.mpr (hrest ▸ hfirst)]
    · rwa [if_neg heq, if_neg heq] at hother

section

variable {β : Type} {rename : String → String} {f : α → β} {fields : Fields α} {key : String}

def mapFields (rename : String → String) (f : α → β) (fields : Fields α) : Fields β :=
  fields.map fun (key, value) => (rename key, f value)

variable (h : ∀ other ∈ keys fields, rename other = rename key → other = key)
include h

lemma get?_mapFields : get? (mapFields rename f fields) (rename key) = (get? fields key).map f := by
  induction fields with
  | nil => rfl
  | cons field rest ih =>
    obtain ⟨k, v⟩ := field
    have hrest := ih fun other hm => h other (List.mem_cons_of_mem _ hm)
    have hk := h k List.mem_cons_self
    change get? ((rename k, f v) :: mapFields rename f rest) _ = _
    rw [get?_cons, get?_cons, hrest]
    by_cases hkey : key = k
    · rw [if_pos hkey, if_pos (congrArg rename hkey), Option.map_some]
    · rw [if_neg hkey, if_neg fun heq => hkey (hk heq.symm).symm]

lemma insert_mapFields (value : α) :
    insert (mapFields rename f fields) (rename key) (f value) =
      mapFields rename f (insert fields key value) := by
  induction fields with
  | nil => rfl
  | cons field rest ih =>
    obtain ⟨k, v⟩ := field
    have hrest := ih fun other hm => h other (List.mem_cons_of_mem _ hm)
    have hk := h k List.mem_cons_self
    change insert ((rename k, f v) :: mapFields rename f rest) _ _ = _
    rw [insert, insert, hrest]
    by_cases hkey : k = key
    · rw [if_pos hkey, if_pos (congrArg rename hkey)]
      rfl
    · rw [if_neg hkey, if_neg fun heq => hkey (hk heq)]
      rfl

lemma erase_mapFields :
    erase (mapFields rename f fields) (rename key) = mapFields rename f (erase fields key) := by
  induction fields with
  | nil => rfl
  | cons field rest ih =>
    obtain ⟨k, v⟩ := field
    have hrest := ih fun other hm => h other (List.mem_cons_of_mem _ hm)
    have hk := h k List.mem_cons_self
    change erase ((rename k, f v) :: mapFields rename f rest) _ = _
    simp only [erase, List.filter_cons] at hrest ⊢
    by_cases hkey : k = key
    · simp [hkey, hrest]
    · have hrename : rename k ≠ rename key := fun heq => hkey (hk heq)
      simp only [bne_iff_ne.mpr hrename, bne_iff_ne.mpr hkey, if_true, hrest]
      rfl

end

end LayeredConfig.Fields
