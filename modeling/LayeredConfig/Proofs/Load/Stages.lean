import LayeredConfig.Load.Pipeline
import LayeredConfig.Proofs.Success

namespace LayeredConfig.Load

def Request.context (request : Request) (document : Import.Document) : Resolution.Context where
  place := ⟨request.source.environment, document.metadata.baseDir, request.files⟩
  symbols := none
  registry := request.registry

structure Stages (request : Request) (log : Log) (document : Import.Document) (loaded : Loaded) :
    Prop where
  documents : ∃ entry progress, request.entry = some entry ∧
    (Import.loadDocument request.files (request.entryPath entry)).run
      ⟨[], [], log ++ request.source.log⟩ = (.ok document, progress) ∧
    ((resolveTwice (request.context document) request.symbols document.tree).run progress.log).1 =
      .ok loaded.config
  schema : loaded.metadata.schema = document.metadata.schema.or (leftoverSchema loaded.config)
  valid : ∀ schema, loaded.metadata.schema = some schema →
    Schema.validate loaded.config schema (Ascription.extract document.tree) = .ok ()

lemma Stages.document_eq {request : Request} {log : Log} {document document' : Import.Document}
    {loaded : Loaded} {entry : Path} (h : Stages request log document loaded)
    (hentry : request.entry = some entry)
    (hdocument : ((Import.loadDocument request.files (request.entryPath entry)).run
      ⟨[], [], log ++ request.source.log⟩).1 = .ok document') : document = document' := by
  obtain ⟨entry', progress, hentry', hrun, -⟩ := h.documents
  obtain rfl : entry = entry' := Option.some.inj (hentry.symm.trans hentry')
  rw [hrun] at hdocument
  exact Except.ok.inj hdocument

lemma importing_eq_ok {α : Type} {run : Import.Run α} {log log' : Log} {a : α}
    (h : (importing run).run log = (.ok a, log')) :
    ∃ progress, run.run ⟨[], [], log⟩ = (.ok a, progress) ∧ progress.log = log' := by
  change ((run.run ⟨[], [], log⟩).1.mapError _, (run.run ⟨[], [], log⟩).2.log) = _ at h
  rcases hrun : run.run ⟨[], [], log⟩ with ⟨_ | b, progress⟩
  · simp [hrun, Except.mapError] at h
  · simp only [hrun, Except.mapError, Prod.mk.injEq, Except.ok.injEq] at h
    obtain ⟨rfl, rfl⟩ := h
    exact ⟨progress, rfl, rfl⟩

lemma importing_run {α : Type} {run : Import.Run α} {log : Log} {progress : Import.Progress}
    {result : Except Import.Failure α} (h : run.run ⟨[], [], log⟩ = (result, progress)) :
    (importing run).run log = (result.mapError .document, progress.log) := by
  change ((run.run ⟨[], [], log⟩).1.mapError _, (run.run ⟨[], [], log⟩).2.log) = _
  rw [h]

lemma resolving_run {α : Type} {run : Resolution.Run α} {log log' : Log}
    {result : Except Tag.Failure α} (h : run.run log = (result, log')) :
    (resolving run).run log = (result.mapError .tag, log') := by
  change ((run.run log).1.mapError _, (run.run log).2) = _
  rw [h]

lemma resolving_eq_ok {α : Type} {run : Resolution.Run α} {log log' : Log} {a : α}
    (h : (resolving run).run log = (.ok a, log')) : run.run log = (.ok a, log') := by
  change ((run.run log).1.mapError _, (run.run log).2) = _ at h
  rcases hrun : run.run log with ⟨_ | b, between⟩
  · simp [hrun, Except.mapError] at h
  · simp only [hrun, Except.mapError, Prod.mk.injEq, Except.ok.injEq] at h
    obtain ⟨rfl, rfl⟩ := h
    rfl

lemma validateWith_eq_ok {tree : Node} {annotations : Fields String} {schema : Mapping}
    {log log' : Log} (h : (validateWith tree annotations schema).run log = (.ok (), log')) :
    Schema.validate tree schema annotations = .ok () := by
  obtain ⟨_, _, -, h⟩ := run_bind_eq_ok.mp h
  obtain ⟨_, _, -, h⟩ := run_bind_eq_ok.mp h
  cases hvalid : Schema.validate tree schema annotations with
  | ok u => rfl
  | error mismatch =>
    simp only [hvalid] at h
    cases h

theorem load_stages {request : Request} {log : Log} {loaded : Loaded}
    (h : ((load request).run log).1 = .ok loaded) :
    ∃ document, Stages request log document loaded := by
  obtain ⟨log', h⟩ : ∃ log', (load request).run log = (.ok loaded, log') := ⟨_, Prod.ext h rfl⟩
  rw [load] at h
  cases hentry : request.entry with
  | none =>
    simp only [hentry] at h
    cases h
  | some entry =>
    simp only [hentry] at h
    obtain ⟨_, _, hnote, h⟩ := run_bind_eq_ok.mp h
    cases hnote
    obtain ⟨document, _, hdocument, h⟩ := run_bind_eq_ok.mp h
    obtain ⟨progress, himport, rfl⟩ := importing_eq_ok hdocument
    obtain ⟨tree, between, htree, h⟩ := run_bind_eq_ok.mp h
    have hresolved := resolving_eq_ok htree
    refine ⟨document, ?_⟩
    cases hschema : document.metadata.schema.or (leftoverSchema tree) with
    | none =>
      simp only [hschema] at h
      cases h
      exact ⟨⟨entry, progress, hentry, himport, congrArg Prod.fst hresolved⟩, hschema.symm,
        fun _ hsome => by cases hsome⟩
    | some schema =>
      simp only [hschema] at h
      obtain ⟨_, _, hvalid, h⟩ := run_bind_eq_ok.mp h
      cases h
      refine ⟨⟨entry, progress, hentry, himport, congrArg Prod.fst hresolved⟩, hschema.symm, ?_⟩
      intro schema' hsome
      cases hsome
      exact validateWith_eq_ok hvalid

section

variable (request : Request) {log : Log} {entry : Path} (hentry : request.entry = some entry)
  {progress : Import.Progress}
include hentry

lemma load_of_unread {failure : Import.Failure}
    (hread : (Import.loadDocument request.files (request.entryPath entry)).run
      ⟨[], [], log ++ request.source.log⟩ = (.error failure, progress)) :
    ((load request).run log).1 = .error (.document failure) := by
  have hnote : (note request.source.log).run log = (.ok (), log ++ request.source.log) := rfl
  simp only [load, hentry]
  rw [run_bind_of_ok hnote, run_bind_of_error (importing_run hread)]

lemma load_unchecked {document : Import.Document} {result : Except Tag.Failure Node} {last : Log}
    (hread : (Import.loadDocument request.files (request.entryPath entry)).run
      ⟨[], [], log ++ request.source.log⟩ = (.ok document, progress))
    (hresolve : (resolveTwice (request.context document) request.symbols document.tree).run
      progress.log = (result, last))
    (hschema : document.metadata.schema = none)
    (hleftover : ∀ tree, result = .ok tree → leftoverSchema tree = none) :
    ((load request).run log).1.map Loaded.config = result.mapError .tag ∧
      ((load request).run log).2 = last := by
  have hnote : (note request.source.log).run log = (.ok (), log ++ request.source.log) := rfl
  have hcontext : ⟨⟨request.source.environment, document.metadata.baseDir, request.files⟩, none,
      request.registry⟩ = request.context document := rfl
  simp only [load, hentry]
  rw [run_bind_of_ok hnote, run_bind_of_ok (importing_run hread), hcontext]
  cases result with
  | error failure =>
    rw [run_bind_of_error (resolving_run hresolve)]
    exact ⟨rfl, rfl⟩
  | ok tree =>
    rw [run_bind_of_ok (resolving_run hresolve)]
    simp only [hschema, hleftover tree rfl, Option.or_none]
    exact ⟨rfl, rfl⟩

end

end LayeredConfig.Load
