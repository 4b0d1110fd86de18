import LayeredConfig.Proofs.Node.Merging
import LayeredConfig.Proofs.Node.Within

/-! Three trees over one another. -/

namespace LayeredConfig.Node

/-- The middle one of three values is neither null nor of the kind of the two around it, which are
both mappings or both sequences. -/
structure Splits (a b c : Node) : Prop where
  container : a.isContainer = true
  upper : c.kind = a.kind
  present : b.isNull = false
  other : b.kind ≠ a.kind

inductive Sandwiched : Node → Node → Node → Prop
  | here {a b c : Node} (h : Splits a b c) : Sandwiched a b c
  | deeper {lower middle upper : Mapping} {key : String} {a b c : Node}
      (hlower : Fields.get? lower key = some a) (hmiddle : Fields.get? middle key = some b)
      (hupper : Fields.get? upper key = some c) (h : Sandwiched a b c) :
      Sandwiched (.mapping lower) (.mapping middle) (.mapping upper)

lemma isNull_of_isContainer {n : Node} (h : n.isContainer = true) : n.isNull = false := by
  cases n with
  | mapping | sequence => rfl
  | _ => cases h

lemma Everywhere.distinct {n : Node} (h : n.Everywhere KeysNodup) : n.Distinct :=
  fun _ fields hpath => (h.within (within_of_descend hpath)).here fields rfl

lemma Distinct.get? {n value : Node} (h : n.Distinct) {key : String} (hvalue : n.get? key = some value) :
    value.Distinct := by
  intro path fields hpath
  apply h (key :: path) fields
  rw [descend, hvalue]
  exact hpath

lemma mergeFields_assoc {lower middle upper : Mapping} (hlower : (Fields.keys lower).Nodup)
    (hmiddle : (Fields.keys middle).Nodup) (hupper : (Fields.keys upper).Nodup)
    (hvalues : ∀ key a b c, Fields.get? lower key = some a → Fields.get? middle key = some b →
      Fields.get? upper key = some c → (a.merge b).merge c = a.merge (b.merge c)) :
    mergeFields (mergeFields lower middle) upper =
      mergeFields lower (mergeFields middle upper) := by
  have hjoined := nodup_mergeFields hmiddle upper
  apply Fields.ext_of_nodup (nodup_mergeFields (nodup_mergeFields hlower middle) upper)
  · rw [keys_mergeFields hupper, keys_mergeFields hmiddle, keys_mergeFields hjoined,
      keys_mergeFields hupper]
    simp only [List.removeAll, List.filter_append, List.filter_filter, List.append_assoc]
    congr 2
    apply List.filter_congr
    intro key _
    rw [Bool.eq_iff_iff]
    simp
    tauto
  · intro key
    rw [get?_mergeFields hupper, get?_mergeFields hmiddle, get?_mergeFields hjoined,
      get?_mergeFields hupper]
    cases ha : Fields.get? lower key with
    | none => rw [Option.merge_none_left, Option.merge_none_left]
    | some a =>
      cases hb : Fields.get? middle key with
      | none => rw [Option.merge_none_right, Option.merge_none_left]
      | some b =>
        cases hc : Fields.get? upper key with
        | none => rw [Option.merge_none_right, Option.merge_none_right]
        | some c => exact congrArg some (hvalues key a b c ha hb hc)

mutual

lemma merge_assoc_of_not_sandwiched : (c : Node) → ∀ {a b : Node}, a.Distinct → b.Distinct →
    c.Distinct → ¬ Sandwiched a b c → (a.merge b).merge c = a.merge (b.merge c)
  | .mapping upper, a, b, ha, hb, hc, h => by
    cases b with
    | null => rw [null_merge]; rfl
    | mapping middle =>
      cases a with
      | mapping lower =>
        refine congrArg mapping (mergeFields_assoc (ha.keysNodup lower rfl) (hb.keysNodup middle rfl)
          (hc.keysNodup upper rfl) ?_)
        intro key x y z hx hy hz
        have hbelow : ¬ Sandwiched x y z := fun hxyz => h (.deeper hx hy hz hxyz)
        exact merge_assoc_values upper _ (Fields.mem_of_get? hz) (ha.get? hx) (hb.get? hy)
          (hc.get? hz) hbelow
      | _ => rfl
    | _ =>
      cases a with
      | mapping lower => exact absurd (.here ⟨rfl, rfl, rfl, nofun⟩) h
      | _ => rfl
  | .sequence more, a, b, _, _, _, h => by
    cases b with
    | null => rw [null_merge]; rfl
    | sequence middle =>
      cases a with
      | sequence lower => exact congrArg sequence (List.append_assoc lower middle more)
      | _ => rfl
    | _ =>
      cases a with
      | sequence lower => exact absurd (.here ⟨rfl, rfl, rfl, nofun⟩) h
      | _ => rfl
  | .null, _, _, _, _, _, _ | .bool _, _, _, _, _, _, _ | .int _, _, _, _, _, _, _
  | .float _, _, _, _, _, _, _ | .string _, _, _, _, _, _, _ | .expression _, _, _, _, _, _, _
  | .tag _ _, _, _, _, _, _, _ | .conditional _ _, _, _, _, _, _, _ => rfl

lemma merge_assoc_values : (fields : List (String × Node)) → ∀ field ∈ fields, ∀ {a b : Node},
    a.Distinct → b.Distinct → field.2.Distinct → ¬ Sandwiched a b field.2 →
    (a.merge b).merge field.2 = a.merge (b.merge field.2)
  | (key, value) :: rest, field, hfield, a, b, ha, hb, hc, h => by
    obtain rfl | hfield := List.mem_cons.mp hfield
    · exact merge_assoc_of_not_sandwiched value ha hb hc h
    · exact merge_assoc_values rest field hfield ha hb hc h

end

lemma sandwiched_iff {a b c : Node} :
    Sandwiched a b c ↔ ∃ path x y z, a.descend path = some x ∧ b.descend path = some y ∧
      c.descend path = some z ∧ Splits x y z := by
  constructor
  · intro h
    induction h with
    | here h => exact ⟨[], _, _, _, rfl, rfl, rfl, h⟩
    | deeper hlower hmiddle hupper h ih =>
      obtain ⟨path, x, y, z, hx, hy, hz, hsplits⟩ := ih
      exact ⟨_ :: path, x, y, z, descend_cons_eq_some.mpr ⟨_, _, rfl, hlower, hx⟩,
        descend_cons_eq_some.mpr ⟨_, _, rfl, hmiddle, hy⟩,
        descend_cons_eq_some.mpr ⟨_, _, rfl, hupper, hz⟩, hsplits⟩
  · rintro ⟨path, x, y, z, hx, hy, hz, hsplits⟩
    induction path generalizing a b c with
    | nil =>
      cases hx
      cases hy
      cases hz
      exact .here hsplits
    | cons key path ih =>
      obtain ⟨lower, a', rfl, hlower, hx⟩ := descend_cons_eq_some.mp hx
      obtain ⟨middle, b', rfl, hmiddle, hy⟩ := descend_cons_eq_some.mp hy
      obtain ⟨upper, c', rfl, hupper, hz⟩ := descend_cons_eq_some.mp hz
      exact .deeper hlower hmiddle hupper (ih hx hy hz)

/-- Laying three trees over one another is associative, the order of the keys included, unless a
value splits two mappings or two sequences at some path. -/
theorem merge_regroup {a b c : Node} (ha : a.Distinct) (hb : b.Distinct) (hc : c.Distinct)
    (h : ∀ path x y z, a.descend path = some x → b.descend path = some y →
      c.descend path = some z → ¬ Splits x y z) :
    (a.merge b).merge c = a.merge (b.merge c) := by
  refine merge_assoc_of_not_sandwiched c ha hb hc fun hsandwiched => ?_
  obtain ⟨path, x, y, z, hx, hy, hz, hsplits⟩ := sandwiched_iff.mp hsandwiched
  exact h path x y z hx hy hz hsplits

example : ((sequence [.int 1]).merge (.int 2)).merge (.sequence [.int 3]) = .sequence [.int 3] ∧
    (sequence [.int 1]).merge ((int 2).merge (.sequence [.int 3])) =
      .sequence [.int 1, .int 3] := ⟨rfl, rfl⟩

abbrev lowerTree : Node :=
  .mapping [("log", .sequence [.int 1]), ("app", .mapping [("port", .int 80)])]

abbrev middleTree : Node := .mapping [("app", .mapping [("host", .string "a")]), ("log", .null)]

abbrev upperTree : Node :=
  .mapping [("log", .sequence [.int 2]), ("app", .mapping [("port", .sequence [])])]

lemma not_sandwiched_trees : ¬ Sandwiched lowerTree middleTree upperTree := by
  intro h
  cases h with
  | here h => exact h.other rfl
  | @deeper _ _ _ key a b c hlower hmiddle _ h =>
    have hkey := Fields.mem_of_get? hmiddle
    simp only [List.mem_cons, Prod.mk.injEq, List.not_mem_nil, or_false] at hkey
    obtain ⟨rfl, rfl⟩ | ⟨rfl, rfl⟩ := hkey
    · obtain rfl : .mapping [("port", .int 80)] = a := Option.some.inj hlower
      cases h with
      | here h => exact h.other rfl
      | deeper hlower hmiddle _ _ =>
        obtain ⟨rfl, -⟩ : _ = "port" ∧ _ := by simpa using Fields.mem_of_get? hlower
        cases hmiddle
    · cases h with
      | here h => cases h.present

theorem merge_regroup_trees :
    (lowerTree.merge middleTree).merge upperTree = lowerTree.merge (middleTree.merge upperTree) ∧
    (lowerTree.merge middleTree).merge upperTree = .mapping [("log", .sequence [.int 1, .int 2]),
      ("app", .mapping [("port", .sequence []), ("host", .string "a")])] := by
  have hlower : lowerTree.Distinct := Everywhere.distinct (by
    simp [Everywhere, FieldsEverywhere, ItemsEverywhere, KeysNodup, Fields.keys])
  have hmiddle : middleTree.Distinct := Everywhere.distinct (by
    simp [Everywhere, FieldsEverywhere, KeysNodup, Fields.keys])
  have hupper : upperTree.Distinct := Everywhere.distinct (by
    simp [Everywhere, FieldsEverywhere, ItemsEverywhere, KeysNodup, Fields.keys])
  refine ⟨merge_regroup hlower hmiddle hupper ?_, rfl⟩
  intro path x y z hx hy hz hsplits
  exact not_sandwiched_trees (sandwiched_iff.mpr ⟨path, x, y, z, hx, hy, hz, hsplits⟩)

end LayeredConfig.Node
