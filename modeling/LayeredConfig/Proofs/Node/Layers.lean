import LayeredConfig.Proofs.Node.Associativity

/-! Layers of one shape. -/

namespace LayeredConfig.Node

inductive Form where
  | mapping
  | sequence
  | plain
  deriving Repr, DecidableEq

def form : Node → Form
  | .mapping _ => .mapping
  | .sequence _ => .sequence
  | _ => .plain

def keys : Node → List String
  | .mapping fields => Fields.keys fields
  | _ => []

def items : Node → List Node
  | .sequence items => items
  | _ => []

structure FitsHere (form : Form) (n : Node) : Prop where
  form : n.isNull = false → n.form = form
  nodup : n.KeysNodup

def Fits (forms : List String → Form) (n : Node) : Prop :=
  ∀ path value, n.descend path = some value → value.FitsHere (forms path)

lemma FitsHere.mapping_cases {n : Node} (h : n.FitsHere .mapping) :
    n = .null ∨ ∃ fields, n = .mapping fields := by
  cases n with
  | null => exact .inl rfl
  | mapping fields => exact .inr ⟨fields, rfl⟩
  | _ => cases h.form rfl

lemma FitsHere.sequence_cases {n : Node} (h : n.FitsHere .sequence) :
    n = .null ∨ ∃ items, n = .sequence items := by
  cases n with
  | null => exact .inl rfl
  | sequence items => exact .inr ⟨items, rfl⟩
  | _ => cases h.form rfl

lemma fitsHere_null (form : Form) : null.FitsHere form := ⟨nofun, nofun⟩

lemma FitsHere.merge {form : Form} {a b : Node} (ha : a.FitsHere form) (hb : b.FitsHere form) :
    (a.merge b).FitsHere form := by
  refine ⟨fun h => ?_, ha.nodup.merge hb.nodup⟩
  cases b with
  | null => exact ha.form h
  | mapping | sequence => cases a <;> exact hb.form rfl
  | _ => exact hb.form rfl

lemma FitsHere.get?_eq_none {form : Form} {n : Node} (h : n.FitsHere form) (hform : form ≠ .mapping)
    (key : String) : n.get? key = none := by
  cases n with
  | mapping fields => exact absurd (h.form rfl).symm hform
  | _ => rfl

lemma get?_merge {form : Form} {a b : Node} (ha : a.FitsHere form) (hb : b.FitsHere form)
    (key : String) : (a.merge b).get? key = (a.get? key).merge merge (b.get? key) := by
  by_cases hform : form = .mapping
  · subst hform
    obtain rfl | ⟨overlay, rfl⟩ := hb.mapping_cases
    · exact Option.merge_none_right.symm
    · obtain rfl | ⟨fields, rfl⟩ := ha.mapping_cases
      · exact Option.merge_none_left.symm
      · exact get?_mergeFields (hb.nodup overlay rfl) fields key
  · rw [(ha.merge hb).get?_eq_none hform, ha.get?_eq_none hform, hb.get?_eq_none hform]
    rfl

section

variable {forms : List String → Form} {a b : Node} (ha : a.Fits forms) (hb : b.Fits forms)
include ha

lemma Fits.here : a.FitsHere (forms []) := ha [] a rfl

lemma Fits.get? {key : String} {value : Node} (h : a.get? key = some value) :
    value.Fits fun path => forms (key :: path) := by
  intro path inner hinner
  apply ha (key :: path) inner
  rw [descend, h]
  exact hinner

include hb

lemma descend_merge (path : List String) :
    (a.merge b).descend path = (a.descend path).merge merge (b.descend path) := by
  induction path generalizing forms a b with
  | nil => rfl
  | cons key path ih =>
    rw [descend, descend, descend, get?_merge ha.here hb.here]
    cases hvalue : a.get? key with
    | none => rw [Option.merge_none_left, Option.bind_none, Option.merge_none_left]
    | some value =>
      cases hupper : b.get? key with
      | none => rw [Option.merge_none_right, Option.bind_none, Option.merge_none_right]
      | some upper => exact ih (ha.get? hvalue) (hb.get? hupper)

lemma Fits.merge : (a.merge b).Fits forms := by
  intro path value hvalue
  rw [descend_merge ha hb] at hvalue
  cases hlower : a.descend path with
  | none =>
    rw [hlower, Option.merge_none_left] at hvalue
    exact hb path value hvalue
  | some lower =>
    rw [hlower] at hvalue
    cases hupper : b.descend path with
    | none =>
      rw [hupper] at hvalue
      cases hvalue
      exact ha path _ hlower
    | some upper =>
      rw [hupper] at hvalue
      cases hvalue
      exact (ha path lower hlower).merge (hb path upper hupper)

end

lemma Fits.distinct {forms : List String → Form} {n : Node} (h : n.Fits forms) : n.Distinct :=
  fun path fields hpath => (h path _ hpath).nodup fields rfl

lemma kind_eq_of_form_eq {a b : Node} (ha : a.isContainer = true) (h : b.form = a.form) :
    b.kind = a.kind := by
  cases a with
  | mapping | sequence => cases b <;> first | rfl | cases h
  | _ => cases ha

lemma not_sandwiched_of_fits {forms : List String → Form} {a b c : Node} (ha : a.Fits forms)
    (hb : b.Fits forms) : ¬ Sandwiched a b c := by
  intro h
  induction h generalizing forms with
  | here h =>
    have hform := ha.here.form (isNull_of_isContainer h.container)
    rw [← hb.here.form h.present] at hform
    exact h.other (kind_eq_of_form_eq h.container hform.symm)
  | deeper hlower hmiddle hupper h ih => exact ih (ha.get? hlower) (hb.get? hmiddle)

lemma merge_assoc {forms : List String → Form} {a b c : Node} (ha : a.Fits forms)
    (hb : b.Fits forms) (hc : c.Fits forms) : (a.merge b).merge c = a.merge (b.merge c) :=
  merge_assoc_of_not_sandwiched c ha.distinct hb.distinct hc.distinct (not_sandwiched_of_fits ha hb)

def valuesAt (layers : List Node) (path : List String) : List Node :=
  layers.filterMap (·.descend path)

section

variable {forms : List String → Form} {layers : List Node}
  (hlayers : ∀ layer ∈ layers, layer.Fits forms) {a : Node} (ha : a.Fits forms)
include hlayers ha

lemma merge_foldl {b : Node} (hb : b.Fits forms) :
    a.merge (layers.foldl merge b) = layers.foldl merge (a.merge b) := by
  induction layers generalizing b with
  | nil => rfl
  | cons layer rest ih =>
    obtain ⟨hlayer, hrest⟩ := List.forall_mem_cons.mp hlayers
    rw [List.foldl_cons, List.foldl_cons, ih hrest (hb.merge hlayer), merge_assoc ha hb hlayer]

lemma descend_foldl_of_some {path : List String} {value : Node}
    (h : a.descend path = some value) :
    (layers.foldl merge a).descend path = some ((valuesAt layers path).foldl merge value) := by
  induction layers generalizing a value with
  | nil => exact h
  | cons layer rest ih =>
    obtain ⟨hlayer, hrest⟩ := List.forall_mem_cons.mp hlayers
    have hmerge := descend_merge ha hlayer path
    rw [h] at hmerge
    rw [List.foldl_cons, valuesAt, List.filterMap_cons]
    cases hupper : layer.descend path with
    | none =>
      rw [hupper] at hmerge
      exact ih hrest (ha.merge hlayer) hmerge
    | some upper =>
      rw [hupper] at hmerge
      exact ih hrest (ha.merge hlayer) hmerge

lemma descend_foldl_of_none {path : List String} (h : a.descend path = none) :
    (layers.foldl merge a).descend path =
      if valuesAt layers path = [] then none
      else some ((valuesAt layers path).foldl merge null) := by
  induction layers generalizing a with
  | nil => exact h
  | cons layer rest ih =>
    obtain ⟨hlayer, hrest⟩ := List.forall_mem_cons.mp hlayers
    have hmerge := descend_merge ha hlayer path
    rw [h, Option.merge_none_left] at hmerge
    rw [List.foldl_cons, valuesAt, List.filterMap_cons]
    cases hupper : layer.descend path with
    | none =>
      rw [hupper] at hmerge
      exact ih hrest (ha.merge hlayer) hmerge
    | some upper =>
      rw [hupper] at hmerge
      rw [descend_foldl_of_some hrest (ha.merge hlayer) hmerge, if_neg (List.cons_ne_nil _ _),
        List.foldl_cons, null_merge]
      rfl

end

lemma fits_null (forms : List String → Form) : null.Fits forms := by
  intro path value h
  cases path with
  | nil =>
    cases h
    exact fitsHere_null _
  | cons key path => cases h

lemma descend_foldl_null {forms : List String → Form} {layers : List Node}
    (hlayers : ∀ layer ∈ layers, layer.Fits forms) (hsome : layers ≠ []) (path : List String) :
    (layers.foldl merge null).descend path =
      if valuesAt layers path = [] then none
      else some ((valuesAt layers path).foldl merge null) := by
  cases path with
  | nil =>
    have hroots : valuesAt layers [] = layers := List.filterMap_some
    rw [hroots, if_neg hsome]
    rfl
  | cons key path => exact descend_foldl_of_none hlayers (fits_null forms) rfl

lemma eraseDups_of_nodup {keys : List String} (h : keys.Nodup) : keys.eraseDups = keys := by
  induction keys with
  | nil => rfl
  | cons key rest ih =>
    obtain ⟨hkey, hrest⟩ := List.nodup_cons.mp h
    have hother : rest.filter (fun other => !other == key) = rest := by
      rw [List.filter_eq_self]
      intro other hm
      have hne : other ≠ key := fun heq => hkey (heq ▸ hm)
      simp [hne]
    rw [List.eraseDups_cons, hother, ih hrest]

/-- What comes of the values that layers have at one path: the last one that is not null where they
are plain, all items of sequences, and the keys of mappings as they first appear. -/
structure LayeredAt (values : List Node) (value : Node) : Prop where
  null : (∀ v ∈ values, v = .null) → value = .null
  plain : ∀ last, (values.filter (!·.isNull)).getLast? = some last → last.form = .plain →
    value = last
  sequence : ∀ v ∈ values, v.form = .sequence → value = .sequence (values.flatMap items)
  mapping : ∀ v ∈ values, v.form = .mapping →
    value.form = .mapping ∧ value.keys = (values.flatMap keys).eraseDups

lemma isNull_of_form_ne_plain {n : Node} (h : n.form ≠ .plain) : n.isNull = false := by
  cases n with
  | null => exact absurd rfl h
  | _ => rfl

lemma isNull_foldl (a : Node) (values : List Node) :
    (values.foldl merge a).isNull = (a.isNull && values.all isNull) := by
  induction values generalizing a with
  | nil => exact (Bool.and_true _).symm
  | cons v rest ih => rw [List.foldl_cons, ih, isNull_merge, List.all_cons, Bool.and_assoc]

lemma foldl_merge_plain {values : List Node} (hvalues : ∀ v ∈ values, v.FitsHere .plain) (a : Node) :
    values.foldl merge a = (values.filter (!·.isNull)).getLast?.getD a := by
  induction values generalizing a with
  | nil => rfl
  | cons v rest ih =>
    obtain ⟨hv, hrest⟩ := List.forall_mem_cons.mp hvalues
    rw [List.foldl_cons, ih hrest, List.filter_cons]
    cases v with
    | null => rfl
    | mapping | sequence => cases hv.form rfl
    | _ =>
      rw [if_pos (by rfl), List.getLast?_cons]
      rfl

section

variable {a v : Node}

lemma items_merge (ha : a.FitsHere .sequence) (hv : v.FitsHere .sequence) :
    (a.merge v).items = a.items ++ v.items := by
  obtain rfl | ⟨more, rfl⟩ := hv.sequence_cases
  · exact (List.append_nil _).symm
  · obtain rfl | ⟨items, rfl⟩ := ha.sequence_cases <;> rfl

lemma keys_merge (ha : a.FitsHere .mapping) (hv : v.FitsHere .mapping) :
    (a.merge v).keys = a.keys ++ v.keys.removeAll a.keys := by
  obtain rfl | ⟨overlay, rfl⟩ := hv.mapping_cases
  · exact (List.append_nil _).symm
  · obtain rfl | ⟨fields, rfl⟩ := ha.mapping_cases
    · exact List.removeAll_nil.symm
    · exact keys_mergeFields (hv.nodup overlay rfl) fields

lemma KeysNodup.nodup_keys (hv : v.KeysNodup) : v.keys.Nodup := by
  cases v with
  | mapping fields => exact hv fields rfl
  | _ => exact List.nodup_nil

lemma keys_merge_of_eq_eraseDups (ha : a.FitsHere .mapping) (hv : v.FitsHere .mapping)
    {seen : List String} (hseen : a.keys = seen.eraseDups) :
    (a.merge v).keys = (seen ++ v.keys).eraseDups := by
  have hmembers : v.keys.removeAll seen.eraseDups = v.keys.removeAll seen :=
    List.filter_congr fun key _ => by simp
  have hnew : (v.keys.removeAll seen).Nodup := hv.nodup.nodup_keys.filter _
  rw [keys_merge ha hv, hseen, hmembers, List.eraseDups_append, eraseDups_of_nodup hnew]

end

section

variable {form : Form} {values : List Node} {a : Node}

lemma fitsHere_foldl (hvalues : ∀ v ∈ values, v.FitsHere form) (ha : a.FitsHere form) :
    (values.foldl merge a).FitsHere form := by
  induction values generalizing a with
  | nil => exact ha
  | cons v rest ih =>
    obtain ⟨hv, hrest⟩ := List.forall_mem_cons.mp hvalues
    exact ih hrest (ha.merge hv)

lemma items_foldl (hvalues : ∀ v ∈ values, v.FitsHere .sequence) (ha : a.FitsHere .sequence) :
    (values.foldl merge a).items = a.items ++ values.flatMap items := by
  induction values generalizing a with
  | nil => exact (List.append_nil _).symm
  | cons v rest ih =>
    obtain ⟨hv, hrest⟩ := List.forall_mem_cons.mp hvalues
    rw [List.foldl_cons, ih hrest (ha.merge hv), items_merge ha hv, List.flatMap_cons,
      List.append_assoc]

lemma keys_foldl (hvalues : ∀ v ∈ values, v.FitsHere .mapping) (ha : a.FitsHere .mapping)
    {seen : List String} (hseen : a.keys = seen.eraseDups) :
    (values.foldl merge a).keys = (seen ++ values.flatMap keys).eraseDups := by
  induction values generalizing a seen with
  | nil => rwa [List.flatMap_nil, List.append_nil]
  | cons v rest ih =>
    obtain ⟨hv, hrest⟩ := List.forall_mem_cons.mp hvalues
    rw [List.foldl_cons, ih hrest (ha.merge hv) (keys_merge_of_eq_eraseDups ha hv hseen),
      List.flatMap_cons, List.append_assoc]

lemma layeredAt_foldl (hvalues : ∀ v ∈ values, v.FitsHere form) :
    LayeredAt values (values.foldl merge .null) := by
  have hfold := fitsHere_foldl hvalues (fitsHere_null form)
  have hform : ∀ {v : Node} {form' : Form}, v ∈ values → v.isNull = false → v.form = form' →
      form = form' := fun hv hsome heq => ((hvalues _ hv).form hsome).symm.trans heq
  have hdefined : ∀ {v : Node}, v ∈ values → v.isNull = false →
      (values.foldl merge .null).isNull = false := by
    intro v hv hsome
    rw [isNull_foldl, Bool.and_eq_false_iff]
    exact .inr (List.all_eq_false.mpr ⟨v, hv, by simp [hsome]⟩)
  constructor
  · intro hnull
    apply eq_null_of_isNull
    rw [isNull_foldl, Bool.and_eq_true]
    refine ⟨rfl, List.all_eq_true.mpr fun v hv => ?_⟩
    rw [hnull v hv]
    rfl
  · intro last hlast hplain
    obtain ⟨hmem, hsome⟩ := List.mem_filter.mp (List.mem_of_getLast? hlast)
    obtain rfl := hform hmem (by simpa using hsome) hplain
    rw [foldl_merge_plain hvalues, hlast, Option.getD_some]
  · intro v hv hsequence
    have hsome : v.isNull = false := isNull_of_form_ne_plain (by simp [hsequence])
    obtain rfl := hform hv hsome hsequence
    have hitems := items_foldl hvalues (fitsHere_null _)
    obtain hnull | ⟨items, hfolded⟩ := hfold.sequence_cases
    · have hnot := hdefined hv hsome
      rw [hnull] at hnot
      cases hnot
    · rw [hfolded] at hitems ⊢
      exact congrArg sequence hitems
  · intro v hv hmapping
    have hsome : v.isNull = false := isNull_of_form_ne_plain (by simp [hmapping])
    obtain rfl := hform hv hsome hmapping
    have hnone : null.keys = ([] : List String).eraseDups := rfl
    exact ⟨hfold.form (hdefined hv hsome), keys_foldl hvalues (fitsHere_null _) hnone⟩

end

structure Layered (layers : List Node) (tree : Node) : Prop where
  absent : ∀ path, valuesAt layers path = [] → tree.descend path = none
  present : ∀ path, valuesAt layers path ≠ [] →
    ∃ value, tree.descend path = some value ∧ LayeredAt (valuesAt layers path) value

lemma layered_foldl {forms : List String → Form} {layers : List Node}
    (hlayers : ∀ layer ∈ layers, layer.Fits forms) (hsome : layers ≠ []) :
    Layered layers (layers.foldl merge .null) := by
  have hdescend := descend_foldl_null hlayers hsome
  refine ⟨fun path hnone => ?_, fun path hvalues => ?_⟩
  · rw [hdescend, if_pos hnone]
  · have hfits : ∀ v ∈ valuesAt layers path, v.FitsHere (forms path) := by
      intro v hv
      obtain ⟨layer, hlayer, hvalue⟩ := List.mem_filterMap.mp hv
      exact hlayers layer hlayer path v hvalue
    exact ⟨_, (hdescend path).trans (if_neg hvalues), layeredAt_foldl hfits⟩

def Consistent (layers : List Node) : Prop :=
  ∀ path, ∀ v ∈ valuesAt layers path, ∀ w ∈ valuesAt layers path,
    v.isNull = false → w.isNull = false → v.form = w.form

def formAt (layers : List Node) (path : List String) : Form :=
  (((valuesAt layers path).find? (!·.isNull)).map form).getD .plain

lemma fits_of_consistent {layers : List Node} (h : Consistent layers)
    (hdistinct : ∀ layer ∈ layers, layer.Distinct) :
    ∀ layer ∈ layers, layer.Fits (formAt layers) := by
  intro layer hlayer path value hvalue
  have hmem : value ∈ valuesAt layers path := List.mem_filterMap.mpr ⟨layer, hlayer, hvalue⟩
  refine ⟨fun hsome => ?_, fun fields hfields => ?_⟩
  · rw [formAt]
    cases hfind : (valuesAt layers path).find? (!·.isNull) with
    | none =>
      have hnull := List.find?_eq_none.mp hfind value hmem
      simp [hsome] at hnull
    | some first =>
      have hfirst := List.find?_some hfind
      exact h path value hmem first (List.mem_of_find?_eq_some hfind) hsome (by simpa using hfirst)
  · exact hdistinct layer hlayer path fields (hfields ▸ hvalue)

end LayeredConfig.Node
