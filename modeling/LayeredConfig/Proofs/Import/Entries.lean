import LayeredConfig.Proofs.Import.Visits
import LayeredConfig.Proofs.Outline.BareLine

namespace LayeredConfig.Import

open Outline

structure Entry where
  path : Path
  directives : Directives
  below : List Visit

mutual

def Visit.entries : Visit → List Entry
  | .entered path d below => entriesOf below ++ [⟨path, d, below⟩]
  | _ => []

def entriesOf : List Visit → List Entry
  | [] => []
  | visit :: rest => visit.entries ++ entriesOf rest

end

mutual

lemma path_mem_reads : (visit : Visit) → ∀ {e}, e ∈ visit.entries → e.path ∈ visit.reads
  | .entered path d below, e, h => by
    rw [Visit.reads]
    obtain h | h := List.mem_append.mp h
    · exact List.mem_cons_of_mem _ (path_mem_readsOf below h)
    · obtain rfl := List.mem_singleton.mp h
      exact List.mem_cons_self
  | .skipped _, _, h | .refused _ _, _, h => absurd h List.not_mem_nil

lemma path_mem_readsOf : (below : List Visit) → ∀ {e}, e ∈ entriesOf below →
    e.path ∈ readsOf below
  | visit :: rest, _, h =>
    List.mem_append.mpr ((List.mem_append.mp h).imp (path_mem_reads visit) (path_mem_readsOf rest))

end

lemma results_cons_eq_ok {acc loaded : Document} {visit : Visit} {rest : List Visit} :
    results acc (visit :: rest) = .ok loaded ↔
      ∃ imported, visit.result = .ok imported ∧ results (acc.add imported) rest = .ok loaded := by
  rw [results]
  cases visit.result <;> simp

structure Clean (tree : Node) : Prop where
  value : tree.OutlinedValue
  undirected : ∀ key ∈ [importKey, schemaKey, evalKey], tree.get? key = none

structure Shaped (tree : Node) : Prop extends Clean tree where
  container : tree.isContainer

lemma clean_null : Clean .null := ⟨⟨nofun, trivial⟩, fun _ _ => rfl⟩

lemma Clean.distinct {tree : Node} (h : Clean tree) : tree.Distinct := h.value.outlined.distinct

lemma Clean.merge {base overlay : Node} (hbase : Clean base) (h : Clean overlay) :
    Clean (base.merge overlay) := by
  refine ⟨Node.outlinedValue_merge hbase.value overlay h.value, fun key hkey => ?_⟩
  exact Node.get?_merge_eq_none h.distinct.keysNodup (hbase.undirected key hkey)
    (h.undirected key hkey)

lemma Shaped.over {base overlay : Node} (h : Shaped overlay) (hbase : Clean base) :
    Shaped (base.merge overlay) :=
  ⟨hbase.merge h.toClean, Node.isContainer_merge _ h.container⟩

lemma shaped_nothing : Shaped Document.nothing.tree :=
  ⟨⟨.of_container rfl Node.outlined_empty, fun _ _ => rfl⟩, rfl⟩

structure Sound (d : Directives) : Prop where
  shaped : Shaped d.content
  mapping : d.imports ≠ [] → d.content.kind = .object

lemma sound_split {n : Node} (hcontainer : n.isContainer) (h : n.Outlined) :
    Sound (.split n) := by
  cases n with
  | mapping fields =>
    refine ⟨⟨⟨.of_container rfl (((h.erase _).erase _).erase _), fun key hkey => ?_⟩, rfl⟩,
      fun _ => rfl⟩
    simp only [List.mem_cons, List.not_mem_nil, or_false] at hkey
    obtain rfl | rfl | rfl := hkey <;>
      simp [Directives.split, Node.get?, Fields.get?_erase]
  | sequence items => exact ⟨⟨⟨.of_container rfl h, fun _ _ => rfl⟩, rfl⟩, fun hnone => absurd rfl hnone⟩
  | _ => cases hcontainer

lemma sound_of_readDirectives {files : FileSystem} {path : Path} {d : Directives}
    (h : readDirectives files path = .ok d) : Sound d := by
  obtain ⟨source, -, -, rfl⟩ := readDirectives_eq_ok.mp h
  have hcontainer : (parse source.toList).isContainer := by
    rw [parse_eq]
    exact isContainer_finish _
  exact sound_split hcontainer (outlined_parse _)

variable {files : FileSystem}

lemma traces_of_mem {visited : List Path} {dir : Path} {imports : List String}
    {below : List Visit} (h : TracesAll files visited dir imports below) {visit : Visit}
    (hvisit : visit ∈ below) : ∃ visited path, visit.Traces files visited path := by
  induction below generalizing visited imports with
  | nil => exact absurd hvisit List.not_mem_nil
  | cons first rest ih =>
    obtain _ | ⟨written, imports⟩ := imports
    · exact absurd h id
    obtain ⟨hfirst, hrest⟩ := tracesAll_cons.mp h
    obtain rfl | hvisit := List.mem_cons.mp hvisit
    · exact ⟨_, _, hfirst⟩
    · obtain ⟨imported, -, hrest⟩ | ⟨failure, -, rfl⟩ := hrest
      · exact ih hrest hvisit
      · exact absurd hvisit List.not_mem_nil

mutual

lemma shaped_result : (visit : Visit) → ∀ {visited path loaded},
    visit.Traces files visited path → visit.result = .ok loaded → Shaped loaded.tree
  | .skipped _, _, _, _, _, h => by
    cases h
    exact shaped_nothing
  | .entered path d below, _, _, _, ⟨_, _, hread, hbelow⟩, h => by
    rw [Visit.result, map_eq_ok] at h
    obtain ⟨acc, hacc, rfl⟩ := h
    have hclean := clean_results below hbelow clean_null hacc
    exact (sound_of_readDirectives hread).shaped.over hclean

lemma clean_results : (below : List Visit) → ∀ {visited dir imports acc loaded},
    TracesAll files visited dir imports below → Clean acc.tree →
    results acc below = .ok loaded → Clean loaded.tree
  | [], _, _, _, _, _, _, hacc, h => by
    cases h
    exact hacc
  | visit :: rest, _, _, _ :: _, acc, _, htraces, hacc, h => by
    obtain ⟨imported, hresult, h⟩ := results_cons_eq_ok.mp h
    obtain ⟨hvisit, ⟨_, -, hrest⟩ | ⟨failure, hfailed, -⟩⟩ := tracesAll_cons.mp htraces
    · have himported := shaped_result visit hvisit hresult
      exact clean_results rest hrest (hacc.merge himported.toClean) h
    · rw [hresult] at hfailed
      cases hfailed

end

mutual

lemma readDirectives_of_mem : (visit : Visit) → ∀ {visited path}, visit.Traces files visited path →
    ∀ e ∈ visit.entries, readDirectives files e.path = .ok e.directives
  | .entered path d below, _, _, ⟨_, _, hread, hbelow⟩, e, he => by
    obtain he | he := List.mem_append.mp he
    · exact readDirectives_of_mem_below below hbelow e he
    · obtain rfl := List.mem_singleton.mp he
      exact hread
  | .skipped _, _, _, _, _, he | .refused _ _, _, _, _, _, he => absurd he List.not_mem_nil

lemma readDirectives_of_mem_below : (below : List Visit) → ∀ {visited dir imports},
    TracesAll files visited dir imports below →
    ∀ e ∈ entriesOf below, readDirectives files e.path = .ok e.directives
  | visit :: rest, _, _, _ :: _, h, e, he => by
    obtain ⟨hvisit, hrest⟩ := tracesAll_cons.mp h
    obtain he | he := List.mem_append.mp he
    · exact readDirectives_of_mem visit hvisit e he
    · obtain ⟨imported, -, hrest⟩ | ⟨failure, -, rfl⟩ := hrest
      · exact readDirectives_of_mem_below rest hrest e he
      · exact absurd he List.not_mem_nil

end

end LayeredConfig.Import
