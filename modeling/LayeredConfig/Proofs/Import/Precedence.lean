import LayeredConfig.Proofs.Import.Traversal

/-! Of each directive that is not an import, the first one counts, in the order in which the
documents are gone through. -/

namespace LayeredConfig.Import

variable {α : Type} {files : FileSystem}

def schema? (files : FileSystem) (path : Path) : Option Mapping :=
  (directives? files path).bind Directives.schemaMapping

def eval? (files : FileSystem) (path : Path) : Option Node :=
  (directives? files path).bind Directives.eval

structure Adopts (pick : Directives → Option α) (kept : Document → Option α) : Prop where
  start : ∀ path d, kept (.start path d) = pick d
  nothing : kept .nothing = none
  add : ∀ d imported, kept (d.add imported) = (kept d).or (kept imported)
  content : ∀ d content, kept (d.over content) = kept d
  directory : ∀ d dir, kept (d.within dir) = kept d

lemma adopts_schema : Adopts Directives.schemaMapping (·.metadata.schema) :=
  ⟨fun _ _ => rfl, rfl, fun _ _ => rfl, fun _ _ => rfl, fun _ _ => rfl⟩

lemma adopts_eval : Adopts Directives.eval (·.metadata.eval) :=
  ⟨fun _ _ => rfl, rfl, fun _ _ => rfl, fun _ _ => rfl, fun _ _ => rfl⟩

section

variable {pick : Directives → Option α} {kept : Document → Option α} (h : Adopts pick kept)
include h

mutual

lemma kept_result : (visit : Visit) → ∀ {visited path loaded},
    visit.Traces files visited path → visit.result = .ok loaded →
    kept loaded = visit.reads.findSome? fun p => (directives? files p).bind pick
  | .skipped _, _, _, _, _, hresult => by
    cases hresult
    exact h.nothing
  | .entered path d below, _, _, _, ⟨_, _, hread, hbelow⟩, hresult => by
    rw [Visit.result, map_eq_ok] at hresult
    obtain ⟨acc, hacc, rfl⟩ := hresult
    rw [h.content, kept_results below hbelow hacc, h.start, Visit.reads, List.findSome?_cons,
      directives?_of_readDirectives hread, Option.bind_some]
    cases pick d <;> rfl

lemma kept_results : (below : List Visit) → ∀ {visited dir imports acc loaded},
    TracesAll files visited dir imports below → results acc below = .ok loaded →
    kept loaded =
      (kept acc).or ((readsOf below).findSome? fun p => (directives? files p).bind pick)
  | [], _, _, _, acc, _, _, hresult => by
    cases hresult
    exact Option.or_none.symm
  | visit :: rest, _, _, _ :: _, acc, loaded, htraces, hresult => by
    obtain ⟨imported, himported, hresult⟩ := results_cons_eq_ok.mp hresult
    obtain ⟨hvisit, ⟨_, -, hrest⟩ | ⟨failure, hfailed, -⟩⟩ := tracesAll_cons.mp htraces
    · rw [kept_results rest hrest hresult, h.add, kept_result visit hvisit himported, readsOf,
        List.findSome?_append, Option.or_assoc]
    · rw [himported] at hfailed
      cases hfailed

end

lemma kept_loadDocument (hfinite : files.Finite) {entry : Path} {log : Log} {loaded : Document}
    {progress : Progress}
    (hload : (loadDocument files entry).run ⟨[], [], log⟩ = (.ok loaded, progress))
    {order : List Path} (horder : Preorder files entry order) :
    kept loaded = order.findSome? fun p => (directives? files p).bind pick := by
  obtain ⟨visit, htraces, -⟩ := exists_visit hfinite entry log
  obtain ⟨d, hd, rfl⟩ := result_of_loadDocument hfinite htraces hload
  rw [h.directory, kept_result h visit htraces hd, (reads_of_preorder htraces horder).2 d hd]

end

/-- The schema of a load is the first one that is a mapping, and its `@eval` block is the first one,
whichever documents they are in. -/
theorem loadDocument_directives (hfinite : files.Finite) {entry : Path} {log : Log}
    {loaded : Document} {progress : Progress}
    (hload : (loadDocument files entry).run ⟨[], [], log⟩ = (.ok loaded, progress)) :
    ∃! order, Preorder files entry order ∧
      loaded.metadata.schema = order.findSome? (schema? files) ∧
      loaded.metadata.eval = order.findSome? (eval? files) := by
  obtain ⟨order, horder⟩ := exists_preorder hfinite entry
  have hschema := kept_loadDocument adopts_schema hfinite hload horder
  have heval := kept_loadDocument adopts_eval hfinite hload horder
  exact ⟨order, ⟨horder, hschema, heval⟩, fun other hother => walk_unique hother.1 horder⟩

def severalSchemas : Listing := [
  (⟨"/m"⟩, .ok "@import:\n  - a\n  - b\n"),
  (⟨"/a"⟩, .ok "@schema: x\n@eval: 1\n"),
  (⟨"/b"⟩, .ok "@import: m\n@schema:\n  T: string\n@eval: 2\n")]

theorem loadDocument_directives_several :
    ∃ loaded progress, (loadDocument severalSchemas.fileSystem ⟨"/m"⟩).run ⟨[], [], []⟩ =
        (.ok loaded, progress) ∧
      loaded.metadata.schema = some [("T", .string "string")] ∧
      loaded.metadata.eval = some (.int 1) ∧
      ∃! order, Preorder severalSchemas.fileSystem ⟨"/m"⟩ order ∧
        loaded.metadata.schema = order.findSome? (schema? severalSchemas.fileSystem) ∧
        loaded.metadata.eval = order.findSome? (eval? severalSchemas.fileSystem) := by
  have hload : (loadDocument severalSchemas.fileSystem ⟨"/m"⟩).run ⟨[], [], []⟩ =
      (.ok ⟨.mapping [], ⟨["a", "b"], some [("T", .string "string")], some (.int 1), ⟨"/"⟩⟩⟩,
        ⟨[⟨"/m"⟩, ⟨"/a"⟩, ⟨"/b"⟩], [⟨"/m"⟩, ⟨"/a"⟩, ⟨"/b"⟩],
          [.loadedDocument ⟨"/m"⟩ 2, .ignoredSchema .string,
          .loadedDocument ⟨"/a"⟩ 0, .loadedDocument ⟨"/b"⟩ 1, .skippedDocument ⟨"/m"⟩]⟩) := by cbv
  exact ⟨_, _, hload, rfl, rfl,
    loadDocument_directives severalSchemas.canonical_fileSystem.finite hload⟩

end LayeredConfig.Import
