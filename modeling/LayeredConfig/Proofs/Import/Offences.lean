import LayeredConfig.Proofs.Import.HeaderLine
import LayeredConfig.Proofs.Import.Traversal

namespace LayeredConfig.Import

variable {files : FileSystem} {p : Path} {failure : Failure}

def Accepted (files : FileSystem) (p : Path) : Prop :=
  ∃ source, files.read p = .ok source ∧ HeaderFits (firstLine source.toList)

inductive Offence (files : FileSystem) (p : Path) : Failure → Prop where
  | missing {e : ReadError} (hread : files.read p = .error e) (hkind : e.kind = .notFound) :
      Offence files p (.fileNotFound p)
  | unreadable {e : ReadError} (hread : files.read p = .error e) (hkind : e.kind ≠ .notFound) :
      Offence files p (.unreadable p e)
  | wrongHeader {source : String} (hread : files.read p = .ok source)
      (hnot : ¬ HeaderFits (firstLine source.toList)) :
      Offence files p (.wrongHeader p (String.ofList (firstLine source.toList)))

lemma readSource_of_fits {source : String} (hread : files.read p = .ok source)
    (hfits : HeaderFits (firstLine source.toList)) : readSource files p = .ok source := by
  rw [readSource, hread, sourceOf]
  cases hwrong : wrongHeader? source.toList with
  | none => rfl
  | some header =>
    obtain ⟨rfl, hnot⟩ := wrongHeader?_eq_some.mp hwrong
    exact absurd hfits hnot

lemma readSource_of_offence (h : Offence files p failure) : readSource files p = .error failure := by
  rw [readSource]
  cases h with
  | missing hread hkind =>
    rw [hread, sourceOf]
    exact if_pos hkind
  | unreadable hread hkind =>
    rw [hread, sourceOf]
    exact if_neg hkind
  | wrongHeader hread hnot =>
    rw [hread, sourceOf]
    rw [wrongHeader?_eq_some.mpr ⟨rfl, hnot⟩]

lemma accepted_or_offence (files : FileSystem) (p : Path) :
    Accepted files p ∨ ∃ failure, Offence files p failure := by
  cases hread : files.read p with
  | ok source =>
    by_cases hfits : HeaderFits (firstLine source.toList)
    · exact .inl ⟨source, hread, hfits⟩
    · exact .inr ⟨_, .wrongHeader hread hfits⟩
  | error e =>
    by_cases hkind : e.kind = .notFound
    · exact .inr ⟨_, .missing hread hkind⟩
    · exact .inr ⟨_, .unreadable hread hkind⟩

lemma readDirectives_of_accepted (h : Accepted files p) : ∃ d, readDirectives files p = .ok d := by
  obtain ⟨source, hread, hfits⟩ := h
  rw [readDirectives_eq, readSource_of_fits hread hfits]
  exact ⟨_, rfl⟩

lemma readDirectives_of_offence (h : Offence files p failure) :
    readDirectives files p = .error failure := by
  rw [readDirectives_eq, readSource_of_offence h]
  rfl

lemma not_accepted (h : Offence files p failure) : ¬ Accepted files p := by
  intro haccepted
  obtain ⟨d, hd⟩ := readDirectives_of_accepted haccepted
  rw [readDirectives_of_offence h] at hd
  cases hd

lemma offence_unique {other : Failure} (h : Offence files p failure)
    (hother : Offence files p other) : failure = other := by
  have hread := readDirectives_of_offence h
  rw [readDirectives_of_offence hother] at hread
  cases hread
  rfl

lemma accepted_of_readDirectives {d : Directives} (h : readDirectives files p = .ok d) :
    Accepted files p := by
  obtain haccepted | ⟨failure, hoffence⟩ := accepted_or_offence files p
  · exact haccepted
  · rw [readDirectives_of_offence hoffence] at h
    cases h

lemma offence_of_readDirectives (h : readDirectives files p = .error failure) :
    Offence files p failure := by
  obtain haccepted | ⟨other, hoffence⟩ := accepted_or_offence files p
  · obtain ⟨d, hd⟩ := readDirectives_of_accepted haccepted
    rw [h] at hd
    cases hd
  · rw [readDirectives_of_offence hoffence] at h
    cases h
    exact hoffence

def Ends (files : FileSystem) (reads : List Path) : Except Failure Document → Prop
  | .ok _ => ∀ p ∈ reads, Accepted files p
  | .error failure => ∃ before p, reads = before ++ [p] ∧ (∀ q ∈ before, Accepted files q) ∧
      Offence files p failure

lemma Ends.prepend {before reads : List Path} {result : Except Failure Document}
    (h : Ends files reads result) (hbefore : ∀ p ∈ before, Accepted files p) :
    Ends files (before ++ reads) result := by
  cases result with
  | ok loaded => exact List.forall_mem_append.mpr ⟨hbefore, h⟩
  | error failure =>
    obtain ⟨more, p, rfl, hmore, hoffence⟩ := h
    exact ⟨before ++ more, p, (List.append_assoc ..).symm,
      List.forall_mem_append.mpr ⟨hbefore, hmore⟩, hoffence⟩

lemma Ends.map {reads : List Path} {result : Except Failure Document} (h : Ends files reads result)
    (f : Document → Document) : Ends files reads (result.map f) := by
  cases result with
  | ok loaded => exact h
  | error failure => exact h

mutual

lemma ends_visit : (visit : Visit) → ∀ {visited path}, visit.Traces files visited path →
    Ends files visit.reads visit.result
  | .skipped _, _, _, _ => fun _ hp => absurd hp List.not_mem_nil
  | .refused p _, _, _, ⟨_, _, hread⟩ => ⟨[], p, rfl, fun _ hq => absurd hq List.not_mem_nil,
      offence_of_readDirectives hread⟩
  | .entered p d below, _, _, ⟨_, _, hread, hbelow⟩ => by
    have hp : ∀ q ∈ [p], Accepted files q :=
      List.forall_mem_singleton.mpr (accepted_of_readDirectives hread)
    rw [Visit.reads, Visit.result]
    exact ((ends_visits below hbelow).prepend hp).map _

lemma ends_visits : (below : List Visit) → ∀ {visited dir imports acc},
    TracesAll files visited dir imports below → Ends files (readsOf below) (results acc below)
  | [], _, _, _, _, _ => fun _ hp => absurd hp List.not_mem_nil
  | visit :: rest, _, _, _ :: _, acc, h => by
    obtain ⟨hvisit, hrest⟩ := tracesAll_cons.mp h
    have hends := ends_visit visit hvisit
    rw [readsOf, results]
    obtain ⟨imported, hresult, hrest⟩ | ⟨failure, hresult, rfl⟩ := hrest
    · rw [hresult] at hends ⊢
      exact (ends_visits rest hrest).prepend hends
    · rw [hresult] at hends ⊢
      rwa [readsOf, List.append_nil]

end

lemma first_unique {α : Type} {P : α → Prop} {before before' after after' : List α} {p p' : α}
    (h : before ++ p :: after = before' ++ p' :: after') (hbefore : ∀ q ∈ before, P q) (hp : ¬ P p)
    (hbefore' : ∀ q ∈ before', P q) (hp' : ¬ P p') : before = before' ∧ p = p' := by
  induction before generalizing before' with
  | nil =>
    cases before' with
    | nil => exact ⟨rfl, (List.cons.inj h).1⟩
    | cons q rest =>
      obtain ⟨rfl, -⟩ := List.cons.inj h
      exact absurd (hbefore' p List.mem_cons_self) hp
  | cons q rest ih =>
    cases before' with
    | nil =>
      obtain ⟨rfl, -⟩ := List.cons.inj h
      exact absurd (hbefore q List.mem_cons_self) hp'
    | cons q' rest' =>
      obtain ⟨rfl, hrest⟩ := List.cons.inj h
      obtain ⟨rfl, rfl⟩ := ih hrest (List.forall_mem_cons.mp hbefore).2
        (List.forall_mem_cons.mp hbefore').2
      exact ⟨rfl, rfl⟩

structure Blames (files : FileSystem) (order before : List Path) (p : Path) (failure : Failure) :
    Prop where
  leading : before ++ [p] <+: order
  accepted : ∀ q ∈ before, Accepted files q
  offence : Offence files p failure

lemma blames_unique {order before before' : List Path} {p' : Path} {failure' : Failure}
    (h : Blames files order before p failure) (h' : Blames files order before' p' failure') :
    before = before' ∧ p = p' ∧ failure = failure' := by
  obtain ⟨after, rfl⟩ := h.leading
  obtain ⟨after', heq⟩ := h'.leading
  rw [List.append_assoc, List.append_assoc, List.singleton_append, List.singleton_append] at heq
  obtain ⟨rfl, rfl⟩ := first_unique heq.symm h.accepted (not_accepted h.offence) h'.accepted
    (not_accepted h'.offence)
  exact ⟨rfl, rfl, offence_unique h.offence h'.offence⟩

lemma result_of_preorder {entry : Path} {visit : Visit} {order : List Path}
    (htraces : visit.Traces files [] (files.realPath entry)) (horder : Preorder files entry order) :
    ((∃ loaded, visit.result = .ok loaded) ∧ ∀ p ∈ order, Accepted files p) ∨
      ∃ before p failure, visit.result = .error failure ∧ visit.reads = before ++ [p] ∧
        Blames files order before p failure := by
  -- A visit from the entry fails with the first document that cannot be loaded, having read up to
  -- there, and else succeeds.
  obtain ⟨hfront, hall⟩ := reads_of_preorder htraces horder
  have hends := ends_visit visit htraces
  cases hresult : visit.result with
  | ok loaded =>
    rw [hresult] at hends
    rw [hall loaded hresult]
    exact .inl ⟨⟨loaded, rfl⟩, hends⟩
  | error failure =>
    rw [hresult] at hends
    obtain ⟨before, p, hreads, hbefore, hoffence⟩ := hends
    exact .inr ⟨before, p, failure, rfl, hreads, hreads ▸ hfront, hbefore, hoffence⟩

end LayeredConfig.Import
