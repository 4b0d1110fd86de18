import LayeredConfig.Proofs.FileSystem.Joining
import LayeredConfig.Proofs.Import.Entries
import Mathlib.Logic.Relation

/-! The imports as a graph of documents, and the order in which it is gone through depth first. -/

namespace LayeredConfig.Import

open Relation

def directives? (files : FileSystem) (path : Path) : Option Directives :=
  (files.read path).toOption.map fun source => .split (Outline.parse source.toList)

def importsOf (files : FileSystem) (path : Path) : List Path :=
  ((directives? files path).map Directives.imports).getD [] |>.map fun written =>
    files.realPath (importTarget files path.parent written)

def root (files : FileSystem) (entry : Path) : Path := files.realPath (files.realPath entry)

/-- From the documents that were met and those that come next to the order of all. A document that
is new comes behind those that were met, and its imports come before all others. -/
inductive Walk (files : FileSystem) : List Path → List Path → List Path → Prop where
  | done (met : List Path) : Walk files met [] met
  | again {met todo order : List Path} {here : Path} (h : met.any here.same = true)
      (hrest : Walk files met todo order) : Walk files met (here :: todo) order
  | new {met todo order : List Path} {here : Path} (h : met.any here.same = false)
      (hrest : Walk files (met ++ [here]) (importsOf files here ++ todo) order) :
      Walk files met (here :: todo) order

abbrev Preorder (files : FileSystem) (entry : Path) (order : List Path) : Prop :=
  Walk files [] [root files entry] order

abbrev Reachable (files : FileSystem) (entry : Path) : Path → Prop :=
  ReflTransGen (fun p q => q ∈ importsOf files p) (root files entry)

section

variable {files : FileSystem} {met todo order : List Path}

lemma walk_nil : Walk files met [] order ↔ order = met := by
  constructor
  · intro h
    cases h
    rfl
  · rintro rfl
    exact .done order

lemma walk_cons_of_met {here : Path} (hseen : met.any here.same = true) :
    Walk files met (here :: todo) order ↔ Walk files met todo order := by
  constructor
  · intro h
    cases h with
    | again _ hrest => exact hrest
    | new hnew _ =>
      rw [hseen] at hnew
      cases hnew
  · exact .again hseen

lemma walk_cons_of_new {here : Path} (hnew : met.any here.same = false) :
    Walk files met (here :: todo) order ↔
      Walk files (met ++ [here]) (importsOf files here ++ todo) order := by
  constructor
  · intro h
    cases h with
    | again hseen _ =>
      rw [hnew] at hseen
      cases hseen
    | new _ hrest => exact hrest
  · exact .new hnew

lemma walk_unique (h : Walk files met todo order) {other : List Path}
    (hother : Walk files met todo other) : order = other := by
  induction h with
  | done met => exact (walk_nil.mp hother).symm
  | again hseen _ ih => exact ih ((walk_cons_of_met hseen).mp hother)
  | new hnew _ ih => exact ih ((walk_cons_of_new hnew).mp hother)

lemma prefix_of_walk (h : Walk files met todo order) : met <+: order := by
  induction h with
  | done met => exact List.prefix_rfl
  | again _ _ ih => exact ih
  | new _ _ ih => exact (List.prefix_append _ _).trans ih

lemma mem_importsOf {p q : Path} (h : q ∈ importsOf files p) : ∃ path, q = files.realPath path := by
  obtain ⟨written, -, rfl⟩ := List.mem_map.mp h
  exact ⟨_, rfl⟩

lemma exists_walk (hfinite : files.Finite) (bound : Nat) (hbound : unvisited files met < bound)
    (htodo : ∀ p ∈ todo, ∃ path, p = files.realPath path) : ∃ order, Walk files met todo order := by
  -- A document that has imports is one less of those that can be read, and others add nothing.
  induction bound generalizing met todo with
  | zero => exact absurd hbound (Nat.not_lt_zero _)
  | succ bound ih =>
    induction todo generalizing met with
    | nil => exact ⟨met, .done met⟩
    | cons here todo ihtodo =>
      obtain ⟨⟨path, rfl⟩, hlater⟩ := List.forall_mem_cons.mp htodo
      cases hseen : met.any (files.realPath path).same with
      | true =>
        obtain ⟨order, horder⟩ := ihtodo hbound hlater
        exact ⟨order, .again hseen horder⟩
      | false =>
        cases hread : files.read (files.realPath path) with
        | error e =>
          have hnone : importsOf files (files.realPath path) = [] := by
            rw [importsOf, directives?, hread]
            rfl
          have hless := (unvisited_append_le files met [files.realPath path]).trans_lt hbound
          obtain ⟨order, horder⟩ := ihtodo hless hlater
          refine ⟨order, .new hseen ?_⟩
          rwa [hnone]
        | ok source =>
          obtain ⟨q, hq, hsame⟩ := hfinite.listed path source hread
          have hless := unvisited_lt hseen hq hsame
          have hall : ∀ p ∈ importsOf files (files.realPath path) ++ todo,
              ∃ path, p = files.realPath path := by
            intro p hp
            exact (List.mem_append.mp hp).elim mem_importsOf (hlater p)
          obtain ⟨order, horder⟩ := ih (Nat.lt_of_lt_of_le hless (Nat.lt_succ_iff.mp hbound)) hall
          exact ⟨order, .new hseen horder⟩

lemma exists_preorder (hfinite : files.Finite) (entry : Path) :
    ∃ order, Preorder files entry order := by
  refine exists_walk hfinite _ (Nat.lt_succ_self _) fun p hp => ?_
  obtain rfl := List.mem_singleton.mp hp
  exact ⟨_, rfl⟩

lemma reachable_of_walk {entry : Path} (h : Walk files met todo order)
    (hmet : ∀ p ∈ met, Reachable files entry p) (htodo : ∀ p ∈ todo, Reachable files entry p) :
    ∀ p ∈ order, Reachable files entry p := by
  induction h with
  | done met => exact hmet
  | again _ _ ih => exact ih hmet (List.forall_mem_cons.mp htodo).2
  | new _ _ ih =>
    obtain ⟨hhere, htodo⟩ := List.forall_mem_cons.mp htodo
    apply ih
    · rw [List.forall_mem_append, List.forall_mem_singleton]
      exact ⟨hmet, hhere⟩
    · rw [List.forall_mem_append]
      exact ⟨fun p hp => hhere.tail hp, htodo⟩

lemma any_same_trans {p q : Path} {paths : List Path} (h : p.same q = true)
    (hq : paths.any q.same = true) : paths.any p.same = true := by
  rwa [any_same_congr h]

def Covered (files : FileSystem) (met todo : List Path) : Prop :=
  ∀ p ∈ met, ∀ q ∈ importsOf files p, (met ++ todo).any q.same = true

lemma covered_of_walk (h : Walk files met todo order) (hcovered : Covered files met todo) :
    Covered files order [] ∧ ∀ p ∈ todo, order.any p.same = true := by
  induction h with
  | done met => exact ⟨hcovered, fun p hp => absurd hp List.not_mem_nil⟩
  | @again met todo order here hseen hrest ih =>
    have hnext : Covered files met todo := by
      intro p hp q hq
      have hmet := hcovered p hp q hq
      rw [List.any_append, List.any_cons, Bool.or_eq_true, Bool.or_eq_true] at hmet
      rw [List.any_append, Bool.or_eq_true]
      obtain hq | hq | hq := hmet
      · exact .inl hq
      · exact .inl (any_same_trans hq hseen)
      · exact .inr hq
    obtain ⟨horder, htodo⟩ := ih hnext
    refine ⟨horder, List.forall_mem_cons.mpr ⟨?_, htodo⟩⟩
    obtain ⟨q, hq, hsame⟩ := List.any_eq_true.mp hseen
    exact List.any_eq_true.mpr ⟨q, (prefix_of_walk hrest).subset hq, hsame⟩
  | @new met todo order here hnew hrest ih =>
    have hnext : Covered files (met ++ [here]) (importsOf files here ++ todo) := by
      intro p hp q hq
      obtain hp | hp := List.mem_append.mp hp
      · have hmet := hcovered p hp q hq
        simp only [List.any_append, List.any_cons, List.any_nil, Bool.or_eq_true] at hmet ⊢
        tauto
      · obtain rfl := List.mem_singleton.mp hp
        simp only [List.any_append, Bool.or_eq_true]
        exact .inr (.inl (List.any_eq_true.mpr ⟨q, hq, Path.same_refl q⟩))
    obtain ⟨horder, htodo⟩ := ih hnext
    refine ⟨horder, List.forall_mem_cons.mpr ⟨?_, ?_⟩⟩
    · have hhere : here ∈ order := (prefix_of_walk hrest).subset (List.mem_append_right _ (by simp))
      exact List.any_eq_true.mpr ⟨here, hhere, Path.same_refl here⟩
    · exact fun p hp => htodo p (List.mem_append_right _ hp)

end

section

variable {files : FileSystem} (hcoherent : files.Coherent)
include hcoherent

lemma importTarget_congr {dir dir' : Path} (h : dir.same dir' = true) (written : String) :
    (files.realPath (importTarget files dir written)).same
      (files.realPath (importTarget files dir' written)) = true := by
  rw [importTarget, importTarget]
  split
  · exact Path.same_refl _
  · rename_i hrelative
    have hjoin := Path.same_join h (Bool.eq_false_iff.mpr hrelative)
    exact hcoherent.realPath _ _ (hcoherent.realPath _ _ hjoin)

lemma importsOf_congr {p q r : Path} (h : p.same q = true) (hr : r ∈ importsOf files p) :
    ∃ r' ∈ importsOf files q, r.same r' = true := by
  have hread : directives? files p = directives? files q := by
    rw [directives?, directives?, hcoherent.read p q h]
  rw [importsOf, hread] at hr
  obtain ⟨written, hwritten, rfl⟩ := List.mem_map.mp hr
  exact ⟨_, List.mem_map_of_mem hwritten, importTarget_congr hcoherent (Path.same_parent h) written⟩

end

section

variable {files : FileSystem}

lemma directives?_of_readDirectives {path : Path} {d : Directives}
    (h : readDirectives files path = .ok d) : directives? files path = some d := by
  obtain ⟨source, hread, -, rfl⟩ := readDirectives_eq_ok.mp h
  rw [directives?, hread]
  rfl

lemma importsOf_of_readDirectives {path : Path} {d : Directives}
    (h : readDirectives files path = .ok d) : importsOf files path =
      d.imports.map fun written => files.realPath (importTarget files path.parent written) := by
  rw [importsOf, directives?_of_readDirectives h]
  rfl

mutual

lemma walk_visit : (visit : Visit) → ∀ {met path}, visit.Traces files met path →
    ∃ left, (∀ loaded, visit.result = .ok loaded → left = []) ∧ ∀ todo order,
      (Walk files met (files.realPath path :: todo) order ↔
        Walk files (met ++ visit.reads) (left ++ todo) order)
  | .skipped _, met, path, ⟨rfl, hseen⟩ => by
    refine ⟨[], fun _ _ => rfl, fun todo order => ?_⟩
    rw [Visit.reads, List.append_nil]
    exact walk_cons_of_met hseen
  | .refused _ _, met, path, ⟨rfl, hnew, _⟩ => by
    refine ⟨importsOf files (files.realPath path), fun _ h => ?_, fun _ _ => walk_cons_of_new hnew⟩
    cases h
  | .entered _ d below, met, path, ⟨rfl, hnew, hread, hbelow⟩ => by
    obtain ⟨left, hleft, hwalk⟩ := walk_visits below hbelow
    refine ⟨left, fun loaded h => ?_, fun todo order => ?_⟩
    · rw [Visit.result, map_eq_ok] at h
      obtain ⟨acc, hacc, -⟩ := h
      exact hleft _ _ hacc
    · rw [walk_cons_of_new hnew, importsOf_of_readDirectives hread, hwalk, Visit.reads,
        List.append_assoc, List.singleton_append]

lemma walk_visits : (below : List Visit) → ∀ {met dir imports},
    TracesAll files met dir imports below →
    ∃ left, (∀ acc loaded, results acc below = .ok loaded → left = []) ∧ ∀ todo order,
      (Walk files met (imports.map (fun written =>
          files.realPath (importTarget files dir written)) ++ todo) order ↔
        Walk files (met ++ readsOf below) (left ++ todo) order)
  | [], met, dir, [], _ => by
    refine ⟨[], fun _ _ _ => rfl, fun todo order => ?_⟩
    rw [readsOf, List.append_nil]
    rfl
  | visit :: rest, met, dir, written :: imports, h => by
    obtain ⟨hvisit, hrest⟩ := tracesAll_cons.mp h
    obtain ⟨left, hleft, hwalk⟩ := walk_visit visit hvisit
    obtain ⟨imported, hresult, hrest⟩ | ⟨failure, hresult, rfl⟩ := hrest
    · obtain ⟨left', hleft', hwalk'⟩ := walk_visits rest hrest
      refine ⟨left', fun acc loaded h => ?_, fun todo order => ?_⟩
      · obtain ⟨_, -, h⟩ := results_cons_eq_ok.mp h
        exact hleft' _ _ h
      · rw [List.map_cons, List.cons_append, hwalk, hleft imported hresult, List.nil_append, hwalk',
          readsOf, List.append_assoc]
    · refine ⟨left ++ imports.map fun written => files.realPath (importTarget files dir written),
        fun acc loaded h => ?_, fun todo order => ?_⟩
      · obtain ⟨_, hok, -⟩ := results_cons_eq_ok.mp h
        rw [hresult] at hok
        cases hok
      · rw [List.map_cons, List.cons_append, hwalk, readsOf, readsOf, List.append_nil,
          List.append_assoc]

end

lemma reads_of_preorder {entry : Path} {visit : Visit}
    (htraces : visit.Traces files [] (files.realPath entry)) {order : List Path}
    (horder : Preorder files entry order) :
    visit.reads <+: order ∧ ∀ loaded, visit.result = .ok loaded → order = visit.reads := by
  obtain ⟨left, hleft, hwalk⟩ := walk_visit visit htraces
  have hrest := (hwalk [] order).mp horder
  refine ⟨prefix_of_walk hrest, fun loaded h => ?_⟩
  rw [hleft loaded h] at hrest
  exact walk_nil.mp hrest

end

end LayeredConfig.Import
