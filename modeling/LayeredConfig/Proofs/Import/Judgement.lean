import LayeredConfig.Proofs.FileSystem.Disk
import LayeredConfig.Proofs.Import.Offences

/-! Which loads succeed, in terms of the documents that can be reached. -/

namespace LayeredConfig.Import

variable {files : FileSystem} {p : Path} {failure : Failure}

/-- A document that can be loaded can be loaded under each spelling of its path that is reached, and
imports the same there. -/
def Coherent (files : FileSystem) (entry : Path) : Prop :=
  ∀ p q, Reachable files entry p → Reachable files entry q → p.same q = true → Accepted files p →
    Accepted files q ∧ ∀ r ∈ importsOf files p, ∃ r' ∈ importsOf files q, r.same r' = true

lemma coherent_of_fileSystem (h : files.Coherent) (entry : Path) : Coherent files entry := by
  rintro p q - - hsame ⟨source, hread, hfits⟩
  refine ⟨⟨source, (h.read p q hsame).symm.trans hread, hfits⟩, fun r hr => ?_⟩
  exact importsOf_congr h hsame hr

lemma exists_realPath_of_reachable {entry : Path} (h : Reachable files entry p) :
    ∃ path, p = files.realPath path := by
  induction h with
  | refl => exact ⟨_, rfl⟩
  | tail _ hstep => exact mem_importsOf hstep

lemma coherent_disk_iff {disk : Disk.Entry} {working : List String} (hworking : Disk.Named working)
    {entry : Path} : Coherent (Disk.fileSystem disk working) entry ↔
      ∀ p q, Reachable (Disk.fileSystem disk working) entry p →
        Reachable (Disk.fileSystem disk working) entry q → p.same q = true →
        Accepted (Disk.fileSystem disk working) p → Accepted (Disk.fileSystem disk working) q := by
  constructor
  · exact fun h p q hp hq hsame hloaded => (h p q hp hq hsame hloaded).1
  · intro h p q hp hq hsame hloaded
    have hother := h p q hp hq hsame hloaded
    obtain ⟨source, hread, -⟩ := hloaded
    obtain ⟨source', hread', -⟩ := id hother
    obtain ⟨path, rfl⟩ := exists_realPath_of_reachable hp
    obtain ⟨path', rfl⟩ := exists_realPath_of_reachable hq
    refine ⟨hother, fun r hr => ⟨r, ?_, Path.same_refl r⟩⟩
    rwa [← Disk.eq_of_readable hworking hread hread' hsame]

section

variable {entry : Path} {order : List Path} (horder : Preorder files entry order)
include horder

lemma reachable_of_mem (hp : p ∈ order) : Reachable files entry p :=
  reachable_of_walk horder (fun _ hm => absurd hm List.not_mem_nil)
    (List.forall_mem_singleton.mpr .refl) p hp

lemma met_of_reachable (hcoherent : Coherent files entry) (hall : ∀ p ∈ order, Accepted files p)
    (hp : Reachable files entry p) : Accepted files p ∧ ∃ q ∈ order, p.same q = true := by
  obtain ⟨hcovered, hroot⟩ := covered_of_walk horder fun p hp => absurd hp List.not_mem_nil
  have hspelled : ∀ p, Reachable files entry p → order.any p.same = true →
      Accepted files p ∧ ∃ q ∈ order, p.same q = true := by
    intro p hp hmet
    obtain ⟨q, hq, hsame⟩ := List.any_eq_true.mp hmet
    have hloaded := hcoherent q p (reachable_of_mem horder hq) hp (Path.same_symm hsame) (hall q hq)
    exact ⟨hloaded.1, q, hq, hsame⟩
  induction hp with
  | refl => exact hspelled _ .refl (hroot _ List.mem_cons_self)
  | tail hbefore hstep ih =>
    obtain ⟨hloaded, q, hq, hsame⟩ := ih
    obtain ⟨-, himports⟩ := hcoherent _ q hbefore (reachable_of_mem horder hq) hsame hloaded
    obtain ⟨r', hr', hsame'⟩ := himports _ hstep
    have hmet := hcovered q hq r' hr'
    rw [List.append_nil] at hmet
    exact hspelled _ (hbefore.tail hstep) (any_same_trans hsame' hmet)

lemma forall_reachable_iff (hcoherent : Coherent files entry) :
    (∀ p, Reachable files entry p → Accepted files p) ↔ ∀ p ∈ order, Accepted files p :=
  ⟨fun h p hp => h p (reachable_of_mem horder hp),
    fun h _ hp => (met_of_reachable horder hcoherent h hp).1⟩

end

def loadResult (files : FileSystem) (entry : Path) (log : Log) : Except Failure Document :=
  ((loadDocument files entry).run ⟨[], [], log⟩).1

/-- With the documents in their order, whether a load succeeds and what it fails with. -/
structure Judges (files : FileSystem) (entry : Path) (log : Log) (order : List Path) : Prop where
  preorder : Preorder files entry order
  loads : (∃ loaded, loadResult files entry log = .ok loaded) ↔
    files.isFile (files.realPath entry) = true ∧ ∀ p ∈ order, Accepted files p
  reachable : Coherent files entry → ((∃ loaded, loadResult files entry log = .ok loaded) ↔
    files.isFile (files.realPath entry) = true ∧ ∀ p, Reachable files entry p → Accepted files p)
  missing : files.isFile (files.realPath entry) = false →
    loadResult files entry log = .error (.fileNotFound (files.realPath entry))
  fails : files.isFile (files.realPath entry) = true → ∀ failure,
    (loadResult files entry log = .error failure ↔ ∃ before p, Blames files order before p failure)
  rest : ∀ before p failure, Blames files order before p failure →
    ∀ other : FileSystem, other.Finite → SameOn (· ∈ before ++ [p]) files other →
      (loadDocument other entry).run ⟨[], [], log⟩ = (loadDocument files entry).run ⟨[], [], log⟩

section

variable {entry : Path} {order : List Path} {visit : Visit}
  (htraces : visit.Traces files [] (files.realPath entry)) (horder : Preorder files entry order)
include htraces horder

lemma result_eq_ok_iff :
    (∃ loaded, visit.result = .ok loaded) ↔ ∀ p ∈ order, Accepted files p := by
  obtain ⟨hloaded, hall⟩ | ⟨before, p, failure, hresult, -, hblames⟩ :=
    result_of_preorder htraces horder
  · exact iff_of_true hloaded hall
  · refine iff_of_false ?_ fun hall => ?_
    · rintro ⟨loaded, hloaded⟩
      rw [hresult] at hloaded
      cases hloaded
    · have hp := hblames.leading.subset (List.mem_append_right _ List.mem_cons_self)
      exact not_accepted hblames.offence (hall p hp)

lemma of_blames {before : List Path} (h : Blames files order before p failure) :
    visit.result = .error failure ∧ visit.reads = before ++ [p] := by
  obtain ⟨-, hall⟩ | ⟨before', p', failure', hresult, hreads, hblames⟩ :=
    result_of_preorder htraces horder
  · have hp := h.leading.subset (List.mem_append_right _ List.mem_cons_self)
    exact absurd (hall p hp) (not_accepted h.offence)
  · obtain ⟨rfl, rfl, rfl⟩ := blames_unique h hblames
    exact ⟨hresult, hreads⟩

lemma result_eq_error_iff :
    visit.result = .error failure ↔ ∃ before p, Blames files order before p failure := by
  constructor
  · intro hfailed
    obtain ⟨⟨loaded, hresult⟩, -⟩ | ⟨before, p, failure', hresult, -, hblames⟩ :=
      result_of_preorder htraces horder
    · rw [hresult] at hfailed
      cases hfailed
    · rw [hresult] at hfailed
      cases hfailed
      exact ⟨before, p, hblames⟩
  · rintro ⟨before, p, hblames⟩
    exact (of_blames htraces horder hblames).1

lemma run_of_sameOn (hfinite : files.Finite) {before : List Path}
    (h : Blames files order before p failure) {other : FileSystem} (hother : other.Finite)
    (hsame : SameOn (· ∈ before ++ [p]) files other) (log : Log) :
    (loadDocument other entry).run ⟨[], [], log⟩ = (loadDocument files entry).run ⟨[], [], log⟩ := by
  obtain ⟨-, hreads⟩ := of_blames htraces horder h
  have htracesOther : visit.Traces other [] (other.realPath entry) := by
    rw [hsame.realPath]
    exact hsame.traces visit (fun r hr => hreads ▸ hr) htraces
  rw [run_loadDocument hother htracesOther, run_loadDocument hfinite htraces, hsame.realPath,
    hsame.isFile]

end

theorem loadDocument_judges (hfinite : files.Finite) (entry : Path) (log : Log) :
    ∃! order, Judges files entry log order := by
  obtain ⟨order, horder⟩ := exists_preorder hfinite entry
  obtain ⟨visit, htraces, -⟩ := exists_visit hfinite entry log
  have hloads : (∃ loaded, loadResult files entry log = .ok loaded) ↔
      files.isFile (files.realPath entry) = true ∧ ∀ p ∈ order, Accepted files p := by
    rw [← result_eq_ok_iff htraces horder, loadResult, run_loadDocument hfinite htraces]
    cases files.isFile (files.realPath entry) <;> cases visit.result <;> simp [Except.map]
  refine ⟨order, ⟨horder, hloads, fun hcoherent => ?_, fun hno => ?_, fun hfile failure => ?_, ?_⟩,
    fun other hother => walk_unique hother.preorder horder⟩
  · rw [hloads, forall_reachable_iff horder hcoherent]
  · rw [loadResult, run_loadDocument hfinite htraces, if_neg (Bool.eq_false_iff.mp hno)]
  · rw [← result_eq_error_iff htraces horder, loadResult, run_loadDocument hfinite htraces,
      if_pos hfile]
    cases visit.result <;> simp [Except.map]
  · intro before p failure hblames other hother hsame
    exact run_of_sameOn htraces horder hfinite hblames hother hsame log

def slashedImport : FileSystem := Disk.fileSystem (.folder [
  ("m", .file "@import:\n  - a\n  - a/\n".toUTF8),
  ("a", .file "x: 1\n".toUTF8)]) []

theorem slashed_import_unread :
    slashedImport.Finite ∧ slashedImport.isFile (slashedImport.realPath ⟨"/m"⟩) = true ∧
    (∃ loaded, loadResult slashedImport ⟨"/m"⟩ [] = .ok loaded) ∧
    Reachable slashedImport ⟨"/m"⟩ ⟨"/a/"⟩ ∧ ¬ Accepted slashedImport ⟨"/a/"⟩ := by
  have hload : loadResult slashedImport ⟨"/m"⟩ [] =
      .ok ⟨.mapping [("x", .int 1)], ⟨["a", "a/"], none, none, ⟨"/"⟩⟩⟩ := by cbv
  have hroot : root slashedImport ⟨"/m"⟩ = ⟨"/m"⟩ := by cbv
  have himports : importsOf slashedImport ⟨"/m"⟩ = [⟨"/a"⟩, ⟨"/a/"⟩] := by cbv
  have hread : slashedImport.read ⟨"/a/"⟩ =
      .error ⟨.other, "Not a directory (os error 20)"⟩ := by cbv
  refine ⟨(Disk.canonical_fileSystem fun _ hm => absurd hm List.not_mem_nil).finite, by cbv,
    ⟨_, hload⟩, .single ?_, ?_⟩
  · rw [hroot, himports]
    simp
  · rintro ⟨source, hsource, -⟩
    rw [hread] at hsource
    cases hsource

def wrongVersion : Listing := [
  (⟨"/m"⟩, .ok "@import:\n  - a\n  - b\n  - c\n"),
  (⟨"/a"⟩, .ok "%WAFL 1.0\n@import: m\n"),
  (⟨"/b"⟩, .ok " %WAFL one \nx: 1\n")]

theorem loadDocument_judges_header :
    wrongVersion.fileSystem.Finite ∧ Coherent wrongVersion.fileSystem ⟨"/m"⟩ ∧
    loadResult wrongVersion.fileSystem ⟨"/m"⟩ [] = .error (.wrongHeader ⟨"/b"⟩ "%WAFL one") ∧
    ∃! order, Judges wrongVersion.fileSystem ⟨"/m"⟩ [] order :=
  ⟨wrongVersion.canonical_fileSystem.finite,
    coherent_of_fileSystem wrongVersion.coherent_fileSystem _, by cbv,
    loadDocument_judges wrongVersion.canonical_fileSystem.finite _ _⟩

end LayeredConfig.Import
