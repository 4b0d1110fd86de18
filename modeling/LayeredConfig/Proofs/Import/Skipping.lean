import LayeredConfig.Proofs.Import.Entries
import LayeredConfig.Proofs.Simulation

/-! Importing a document that was read before has no effect. -/

namespace LayeredConfig.Import

structure Document.Alike (R : Node → Node → Prop) (d d' : Document) : Prop where
  tree : R d.tree d'.tree
  schema : d.metadata.schema = d'.metadata.schema
  eval : d.metadata.eval = d'.metadata.eval
  baseDir : d.metadata.baseDir = d'.metadata.baseDir

namespace Document

lemma alike_refl (d : Document) : d.Alike Eq d := ⟨rfl, rfl, rfl, rfl⟩

lemma add_congr (d : Document) {imported imported' : Document} (h : imported.Alike Eq imported') :
    d.add imported = d.add imported' := by
  rw [add, add, h.tree, h.schema, h.eval]

lemma Alike.within {d d' : Document} (h : d.Alike Eq d') (dir : Path) :
    (d.within dir).Alike Eq (d'.within dir) :=
  ⟨h.tree, h.schema, h.eval, rfl⟩

lemma alike_add_nothing (d : Document) : (d.add nothing).Alike Node.SameBelow d := by
  refine ⟨Node.sameBelow_merge_empty d.tree, ?_, ?_, rfl⟩
  · exact Option.or_none
  · exact Option.or_none

lemma Alike.trans {d d' d'' : Document} (h : d.Alike Node.SameBelow d')
    (h' : d'.Alike Node.SameBelow d'') : d.Alike Node.SameBelow d'' :=
  ⟨h.tree.trans h'.tree, h.schema.trans h'.schema, h.eval.trans h'.eval,
    h.baseDir.trans h'.baseDir⟩

variable {d d' : Document} (h : d.Alike Node.SameBelow d')
include h

lemma Alike.add {imported : Document} (hcontainer : imported.tree.isContainer)
    (hnodup : imported.tree.KeysNodup) :
    (d.add imported).Alike Node.SameBelow (d'.add imported) := by
  refine ⟨h.tree.merge hcontainer hnodup, ?_, ?_, h.baseDir⟩
  · simp only [Document.add, h.schema]
  · simp only [Document.add, h.eval]

lemma Alike.over {content : Node} (hmapping : content.kind = .object)
    (hnodup : content.KeysNodup) : (d.over content).Alike Eq (d'.over content) :=
  ⟨h.tree.merge_eq hmapping hnodup, h.schema, h.eval, h.baseDir⟩

end Document

structure Edited (here : Path) (files edited : FileSystem) : Prop where
  isFile : edited.isFile = files.isFile
  canonical : edited.canonical? = files.canonical?
  elsewhere : ∀ p, p.same here = false → edited.read p = files.read p

section

variable {here : Path} {files edited : FileSystem} (h : Edited here files edited)
include h

lemma Edited.sameOn : SameOn (fun p => p.same here = false) files edited :=
  ⟨h.isFile, h.canonical, h.elsewhere⟩

lemma Edited.realPath : edited.realPath = files.realPath := h.sameOn.realPath

end

lemma results_alike {below : List Visit}
    (hbelow : ∀ visit ∈ below, ∀ imported, visit.result = .ok imported →
      imported.tree.isContainer ∧ imported.tree.KeysNodup) {acc acc' : Document}
    (h : acc.Alike Node.SameBelow acc') :
    Agree (Document.Alike Node.SameBelow) (results acc below) (results acc' below) := by
  induction below generalizing acc acc' with
  | nil => exact .ok h
  | cons visit rest ih =>
    obtain ⟨hvisit, hrest⟩ := List.forall_mem_cons.mp hbelow
    rw [results, results]
    cases hresult : visit.result with
    | ok imported =>
      obtain ⟨hcontainer, hnodup⟩ := hvisit imported hresult
      exact ih hrest (h.add hcontainer hnodup)
    | error failure => exact .error failure

section

variable {here : Path} {files edited : FileSystem} (hedited : Edited here files edited) {i : Nat}
  {p : Path}

lemma readsOf_eraseIdx {below : List Visit} (hskipped : below[i]? = some (.skipped p)) :
    readsOf (below.eraseIdx i) = readsOf below := by
  induction below generalizing i with
  | nil => cases hskipped
  | cons visit rest ih =>
    cases i with
    | zero =>
      cases hskipped
      rfl
    | succ i => exact congrArg (visit.reads ++ ·) (ih hskipped)

lemma results_eraseIdx {below : List Visit} (hskipped : below[i]? = some (.skipped p))
    (hbelow : ∀ visit ∈ below, ∀ imported, visit.result = .ok imported →
      imported.tree.isContainer ∧ imported.tree.KeysNodup) {acc acc' : Document}
    (h : acc.Alike Node.SameBelow acc') :
    Agree (Document.Alike Node.SameBelow) (results acc below)
      (results acc' (below.eraseIdx i)) := by
  induction below generalizing i acc acc' with
  | nil => cases hskipped
  | cons visit rest ih =>
    obtain ⟨hvisit, hrest⟩ := List.forall_mem_cons.mp hbelow
    cases i with
    | zero =>
      cases hskipped
      exact results_alike hrest (acc.alike_add_nothing.trans h)
    | succ i =>
      rw [List.eraseIdx_cons_succ, results, results]
      cases hresult : visit.result with
      | ok imported =>
        obtain ⟨hcontainer, hnodup⟩ := hvisit imported hresult
        exact ih hskipped hrest (h.add hcontainer hnodup)
      | error failure => exact .error failure

include hedited in
lemma tracesAll_eraseIdx {below : List Visit} (hskipped : below[i]? = some (.skipped p))
    {visited : List Path} {dir : Path} {imports : List String}
    (hreads : ∀ r ∈ readsOf below, r.same here = false)
    (h : TracesAll files visited dir imports below) :
    TracesAll edited visited dir (imports.eraseIdx i) (below.eraseIdx i) := by
  induction below generalizing i visited imports with
  | nil => cases hskipped
  | cons visit rest ih =>
    obtain _ | ⟨written, imports⟩ := imports
    · exact absurd h id
    obtain ⟨hvisit, hrest⟩ := tracesAll_cons.mp h
    rw [readsOf, List.forall_mem_append] at hreads
    obtain ⟨imported, hresult, hrest⟩ | ⟨failure, hresult, rfl⟩ := hrest
    · cases i with
      | zero =>
        cases hskipped
        rw [Visit.reads, List.append_nil] at hrest
        exact hedited.sameOn.tracesAll rest hreads.2 hrest
      | succ i =>
        rw [List.eraseIdx_cons_succ, List.eraseIdx_cons_succ, tracesAll_cons, hedited.sameOn.importTarget]
        exact ⟨hedited.sameOn.traces visit hreads.1 hvisit,
          .inl ⟨imported, hresult, ih hskipped hreads.2 hrest⟩⟩
    · cases i with
      | zero =>
        cases hskipped
        cases hresult
      | succ i => cases hskipped

end

def Directives.without (d : Directives) (i : Nat) : Directives :=
  { d with imports := d.imports.eraseIdx i }

structure Drops (e : Entry) (i : Nat) (files edited : FileSystem) : Prop where
  skipped : ∃ p, e.below[i]? = some (.skipped p)
  edit : Edited e.path files edited
  read : readDirectives edited e.path = .ok (e.directives.without i)

section

variable {files edited : FileSystem} {e : Entry} {i : Nat} (h : Drops e i files edited)
include h

lemma exists_without_here {visited : List Path} {path : Path}
    (htraces : (Visit.entered e.path e.directives e.below).Traces files visited path) :
    ∃ visit : Visit, visit.Traces edited visited path ∧
      visit.reads = e.path :: readsOf e.below ∧
      Agree (Document.Alike Eq) (Visit.entered e.path e.directives e.below).result
        visit.result := by
  obtain ⟨p, hskipped⟩ := h.skipped
  obtain ⟨hpath, hnew, hown, hbelow⟩ := htraces
  have hreads : ∀ r ∈ readsOf e.below, r.same e.path = false := fun r hr =>
    ((fresh_readsOf e.below hbelow).apart hr (by simp)).1
  have hsound := sound_of_readDirectives hown
  have himports : e.directives.imports ≠ [] := by
    intro hnone
    rw [hnone] at hbelow
    cases hall : e.below with
    | nil =>
      rw [hall] at hskipped
      cases hskipped
    | cons first rest =>
      rw [hall] at hbelow
      exact hbelow
  have hresults : Agree (Document.Alike Node.SameBelow)
      (results (.start e.path e.directives) e.below)
      (results (.start e.path (e.directives.without i)) (e.below.eraseIdx i)) := by
    refine results_eraseIdx hskipped ?_ ⟨.refl _, rfl, rfl, rfl⟩
    intro visit hvisit imported himported
    obtain ⟨visited, path, htraces⟩ := traces_of_mem hbelow hvisit
    have hshaped := shaped_result visit htraces himported
    exact ⟨hshaped.container, hshaped.distinct.keysNodup⟩
  refine ⟨.entered e.path (e.directives.without i) (e.below.eraseIdx i), ⟨?_, hnew, h.read, ?_⟩,
    ?_, ?_⟩
  · rwa [h.edit.realPath]
  · exact tracesAll_eraseIdx h.edit hskipped hreads hbelow
  · rw [Visit.reads, readsOf_eraseIdx hskipped]
  · have hmapping := hsound.mapping himports
    exact hresults.map fun _ _ halike => halike.over hmapping hsound.shaped.distinct.keysNodup

mutual

lemma exists_without : (visit : Visit) → ∀ {visited path}, visit.Traces files visited path →
    e ∈ visit.entries → ∃ visit' : Visit, visit'.Traces edited visited path ∧
      visit'.reads = visit.reads ∧ Agree (Document.Alike Eq) visit.result visit'.result
  | .entered here d below, _, _, htraces, he => by
    obtain he | he := List.mem_append.mp he
    · obtain ⟨hpath, hnew, hown, hbelow⟩ := htraces
      obtain ⟨below', hbelow', hreads, hresults⟩ := exists_withoutIn below hbelow he
      have hapart : here.same e.path = false :=
        ((fresh_readsOf below hbelow).apart (path_mem_readsOf below he) (by simp)).2
      refine ⟨.entered here d below', ⟨?_, hnew, ?_, hbelow'⟩, ?_, ?_⟩
      · rwa [h.edit.realPath]
      · rwa [h.edit.sameOn.readDirectives hapart]
      · exact congrArg (here :: ·) hreads
      · rw [Visit.result, Visit.result, hresults]
        exact .of_eq Document.alike_refl rfl
    · have hfields : Visit.entered here d below = .entered e.path e.directives e.below := by
        rw [List.mem_singleton.mp he]
      rw [hfields] at htraces ⊢
      exact exists_without_here h htraces
  | .skipped _, _, _, _, he | .refused _ _, _, _, _, he => absurd he List.not_mem_nil

lemma exists_withoutIn : (below : List Visit) → ∀ {visited dir imports},
    TracesAll files visited dir imports below → e ∈ entriesOf below →
    ∃ below', TracesAll edited visited dir imports below' ∧ readsOf below' = readsOf below ∧
      ∀ acc, results acc below' = results acc below
  | visit :: rest, visited, dir, written :: imports, htraces, he => by
    obtain ⟨hvisit, hrest⟩ := tracesAll_cons.mp htraces
    rw [← h.edit.sameOn.importTarget] at hvisit
    -- The document is read in one of the visits only, and the others do not see the edit.
    obtain he | he := List.mem_append.mp he
    · obtain ⟨visit', hvisit', hreads, hresult⟩ := exists_without visit hvisit he
      obtain ⟨imported, hold, hrest⟩ | ⟨failure, hold, rfl⟩ := hrest
      · rw [hold] at hresult
        obtain ⟨imported', hnew, halike⟩ := hresult.ok_left
        have hbehind : TracesAll edited (visited ++ visit'.reads) dir imports rest := by
          rw [hreads]
          refine h.edit.sameOn.tracesAll rest (fun r hr => ?_) hrest
          have hpath := List.mem_append_right visited (path_mem_reads visit he)
          exact ((fresh_readsOf rest hrest).apart hr hpath).1
        refine ⟨visit' :: rest, tracesAll_cons.mpr ⟨hvisit', .inl ⟨imported', hnew, hbehind⟩⟩, ?_,
          fun acc => ?_⟩
        · rw [readsOf, readsOf, hreads]
        · rw [results, results, hold, hnew]
          exact congrArg (results · rest) (acc.add_congr halike).symm
      · rw [hold] at hresult
        have hnew := hresult.error_left
        refine ⟨[visit'], tracesAll_cons.mpr ⟨hvisit', .inr ⟨failure, hnew, rfl⟩⟩, ?_,
          fun acc => ?_⟩
        · exact congrArg (· ++ []) hreads
        · rw [results, results, hold, hnew]
    · obtain ⟨imported, hold, hrest⟩ | ⟨failure, hold, rfl⟩ := hrest
      · obtain ⟨rest', hrest', hreads, hresults⟩ := exists_withoutIn rest hrest he
        have hvisit' : visit.Traces edited visited (importTarget edited dir written) := by
          refine h.edit.sameOn.traces visit (fun r hr => ?_) hvisit
          have hpath := path_mem_readsOf rest he
          exact ((fresh_readsOf rest hrest).apart hpath (List.mem_append_right visited hr)).2
        refine ⟨visit :: rest', tracesAll_cons.mpr ⟨hvisit', .inl ⟨imported, hold, hrest'⟩⟩, ?_,
          fun acc => ?_⟩
        · rw [readsOf, readsOf, hreads]
        · rw [results, results, hold]
          exact hresults _
      · exact absurd he List.not_mem_nil

end

end

/-- If a document no longer imports what was read before its turn came, the load gives the same
tree, schema and `@eval` block, or fails in the same way. -/
theorem loadDocument_without_skipped {files edited : FileSystem} (hfinite : files.Finite)
    (hfinite' : edited.Finite) {entry : Path} {visit : Visit}
    (htraces : visit.Traces files [] (files.realPath entry)) {e : Entry} (he : e ∈ visit.entries)
    {i : Nat} (hdrops : Drops e i files edited) (log : Log) :
    Agree (Document.Alike Eq) ((loadDocument files entry).run ⟨[], [], log⟩).1
      ((loadDocument edited entry).run ⟨[], [], log⟩).1 := by
  obtain ⟨visit', htraces', -, hresult⟩ := exists_without hdrops visit htraces he
  rw [← hdrops.edit.realPath] at htraces'
  rw [run_loadDocument hfinite htraces, run_loadDocument hfinite' htraces',
    hdrops.edit.isFile, hdrops.edit.realPath]
  split
  · exact hresult.map fun _ _ h => h.within _
  · exact .error _

def selfImporting : Listing :=
  [(⟨"/m"⟩, .ok "@import:\n  - s\n  - m\n"), (⟨"/s"⟩, .ok "- 1\n")]

def listImporting : Listing := [(⟨"/m"⟩, .ok "@import: s\n"), (⟨"/s"⟩, .ok "- 1\n")]

def selfImportingEntry : Entry :=
  ⟨⟨"/m"⟩, ⟨["s", "m"], none, none, .mapping []⟩,
    [.entered ⟨"/s"⟩ ⟨[], none, none, .sequence [.int 1]⟩ [], .skipped ⟨"/m"⟩]⟩

lemma edited_selfImporting :
    Edited ⟨"/m"⟩ selfImporting.fileSystem listImporting.fileSystem := by
  have hlisted : Listing.has listImporting = Listing.has selfImporting := by
    funext p
    rw [Listing.has_eq_any, Listing.has_eq_any]
    rfl
  refine ⟨hlisted, ?_, fun p hp => ?_⟩
  · funext p
    simp only [Listing.fileSystem, hlisted]
  · have hother : Path.same ⟨"/m"⟩ p = false := by
      rw [Bool.eq_false_iff] at hp ⊢
      exact fun hsame => hp (Path.same_symm hsame)
    simp [Listing.fileSystem, Listing.find?, selfImporting, listImporting, List.find?_cons, hother]

lemma traces_selfImporting :
    (Visit.entered selfImportingEntry.path selfImportingEntry.directives
      selfImportingEntry.below).Traces selfImporting.fileSystem []
        (selfImporting.fileSystem.realPath ⟨"/m"⟩) := by
  have hmain : readDirectives selfImporting.fileSystem ⟨"/m"⟩ =
      .ok selfImportingEntry.directives := by cbv
  have hlist : readDirectives selfImporting.fileSystem ⟨"/s"⟩ =
      .ok ⟨[], none, none, .sequence [.int 1]⟩ := by cbv
  rw [Visit.Traces]
  refine ⟨by cbv, by cbv, hmain, ?_⟩
  simp only [selfImportingEntry, TracesAll]
  refine ⟨?_, ?_⟩
  · rw [Visit.Traces]
    exact ⟨by cbv, by cbv, hlist, trivial⟩
  · simp only [Visit.result, results, Except.map]
    refine ⟨?_, trivial⟩
    rw [Visit.Traces]
    exact ⟨by cbv, by cbv⟩

theorem loadDocument_without_skipped_self :
    Drops selfImportingEntry 1 selfImporting.fileSystem listImporting.fileSystem ∧
    Agree (Document.Alike Eq)
      ((loadDocument selfImporting.fileSystem ⟨"/m"⟩).run ⟨[], [], []⟩).1
      ((loadDocument listImporting.fileSystem ⟨"/m"⟩).run ⟨[], [], []⟩).1 := by
  have hread : readDirectives listImporting.fileSystem ⟨"/m"⟩ =
      .ok (selfImportingEntry.directives.without 1) := by cbv
  have hdrops : Drops selfImportingEntry 1 selfImporting.fileSystem listImporting.fileSystem :=
    ⟨⟨_, rfl⟩, edited_selfImporting, hread⟩
  exact ⟨hdrops, loadDocument_without_skipped selfImporting.canonical_fileSystem.finite
    listImporting.canonical_fileSystem.finite traces_selfImporting
    (List.mem_append_right _ List.mem_cons_self) hdrops []⟩

end LayeredConfig.Import
