import LayeredConfig.Proofs.FileSystem.Canonical
import LayeredConfig.Proofs.Import.Reading
import Mathlib

/-! Loading follows the imports depth first, to the end. -/

namespace LayeredConfig.Import

inductive Visit where
  | skipped (path : Path)
  | refused (path : Path) (failure : Failure)
  | entered (path : Path) (d : Directives) (below : List Visit)

def Document.start (path : Path) (d : Directives) : Document :=
  ⟨.null, ⟨d.imports, d.schemaMapping, d.eval, path.parent⟩⟩

def Document.over (below : Document) (content : Node) : Document :=
  { below with tree := below.tree.merge content }

def schemaLog (d : Directives) : Log :=
  match d.schema with
  | some n => if n.kind = .object then [] else [.ignoredSchema n.kind]
  | none => []

mutual

def Visit.result : Visit → Except Failure Document
  | .skipped _ => .ok .nothing
  | .refused _ failure => .error failure
  | .entered path d below => (results (.start path d) below).map (·.over d.content)

def results (acc : Document) : List Visit → Except Failure Document
  | [] => .ok acc
  | visit :: rest =>
    match visit.result with
    | .ok imported => results (acc.add imported) rest
    | .error failure => .error failure

end

mutual

def Visit.reads : Visit → List Path
  | .skipped _ => []
  | .refused path _ => [path]
  | .entered path _ below => path :: readsOf below

def readsOf : List Visit → List Path
  | [] => []
  | visit :: rest => visit.reads ++ readsOf rest

end

mutual

def Visit.log : Visit → Log
  | .skipped path => [.skippedDocument path]
  | .refused _ _ => []
  | .entered path d below => schemaLog d ++ .loadedDocument path d.imports.length :: logOf below

def logOf : List Visit → Log
  | [] => []
  | visit :: rest => visit.log ++ logOf rest

end

mutual

def Visit.Traces (files : FileSystem) (visited : List Path) (path : Path) : Visit → Prop
  | .skipped here => here = files.realPath path ∧ visited.any here.same = true
  | .refused here failure => here = files.realPath path ∧ visited.any here.same = false ∧
      readDirectives files here = .error failure
  | .entered here d below => here = files.realPath path ∧ visited.any here.same = false ∧
      readDirectives files here = .ok d ∧
      TracesAll files (visited ++ [here]) here.parent d.imports below

def TracesAll (files : FileSystem) (visited : List Path) (dir : Path) :
    List String → List Visit → Prop
  | [], [] => True
  | written :: imports, visit :: rest =>
    visit.Traces files visited (importTarget files dir written) ∧
      match visit.result with
      | .ok _ => TracesAll files (visited ++ visit.reads) dir imports rest
      | .error _ => rest = []
  | _, _ => False

end

lemma tracesAll_cons {files : FileSystem} {visited : List Path} {dir : Path} {written : String}
    {imports : List String} {visit : Visit} {rest : List Visit} :
    TracesAll files visited dir (written :: imports) (visit :: rest) ↔
      visit.Traces files visited (importTarget files dir written) ∧
        ((∃ imported, visit.result = .ok imported ∧
            TracesAll files (visited ++ visit.reads) dir imports rest) ∨
          ∃ failure, visit.result = .error failure ∧ rest = []) := by
  rw [TracesAll]
  cases visit.result <;> simp

def unvisited (files : FileSystem) (visited : List Path) : Nat :=
  (files.files.filter fun q => !visited.any q.same).length

lemma unvisited_append (files : FileSystem) (visited more : List Path) :
    unvisited files (visited ++ more) =
      ((files.files.filter fun q => !visited.any q.same).filter
        fun q => !more.any q.same).length := by
  rw [unvisited, List.filter_filter]
  congr 1
  apply List.filter_congr
  intro q _
  rw [List.any_append, Bool.not_or, Bool.and_comm]

lemma unvisited_append_le (files : FileSystem) (visited more : List Path) :
    unvisited files (visited ++ more) ≤ unvisited files visited := by
  rw [unvisited_append]
  exact List.length_filter_le _ _

lemma any_same_congr {p q : Path} (h : p.same q = true) (visited : List Path) :
    visited.any p.same = visited.any q.same := by
  congr 1
  funext r
  rw [Bool.eq_iff_iff]
  exact ⟨fun hp => Path.same_trans (Path.same_symm h) hp, fun hq => Path.same_trans h hq⟩

lemma unvisited_lt {files : FileSystem} {visited : List Path} {here q : Path}
    (hnew : visited.any here.same = false) (hq : q ∈ files.files) (hsame : here.same q = true) :
    unvisited files (visited ++ [here]) < unvisited files visited := by
  rw [unvisited_append]
  apply List.length_filter_lt_length_iff_exists.mpr
  refine ⟨q, List.mem_filter.mpr ⟨hq, ?_⟩, ?_⟩
  · rw [← any_same_congr hsame, hnew]
    rfl
  · simp [Path.same_symm hsame]

lemma run_noteSchema (d : Directives) (progress : Progress) :
    (noteSchema d).run progress =
      (.ok (), { progress with log := progress.log ++ schemaLog d }) := by
  rw [noteSchema, schemaLog]
  cases d.schema with
  | none =>
    rw [List.append_nil]
    rfl
  | some n =>
    dsimp only
    split
    · rw [List.append_nil]
      rfl
    · rfl

lemma run_isVisited {here : Path} {progress : Progress} {seen : Bool}
    (h : progress.visited.any here.same = seen) :
    (isVisited here).run progress = (.ok seen, progress) := by
  rw [← h]
  rfl

lemma run_markVisited (here : Path) (progress : Progress) : (markVisited here).run progress =
    (.ok (), { progress with visited := progress.visited ++ [here] }) := rfl

lemma run_readFile (files : FileSystem) (here : Path) (progress : Progress) :
    (readFile files here).run progress =
      (.ok (files.read here), { progress with reads := progress.reads ++ [here] }) := rfl

lemma run_directivesOf {files : FileSystem} {here : Path} {result : Except Failure Directives}
    (h : readDirectives files here = result) (progress : Progress) :
    (liftM (directivesOf here (files.read here)) : Run Directives).run progress =
      (result, progress) := by
  rw [← h, readDirectives]
  cases directivesOf here (files.read here) <;> rfl

lemma run_over {run : Run Document} {progress between : Progress}
    {result : Except Failure Document} (h : run.run progress = (result, between))
    (content : Node) : (do return (← run).over content : Run Document).run progress =
      (result.map (·.over content), between) := by
  cases result with
  | ok below => exact run_bind_of_ok h
  | error failure => exact run_bind_of_error h

section

variable {files : FileSystem} {path : Path} {progress : Progress} (fuel : Nat)

lemma run_loadWith_visited (hseen : progress.visited.any (files.realPath path).same = true) :
    (loadWith files (fuel + 1) path).run progress = (.ok .nothing,
      { progress with log := progress.log ++ [.skippedDocument (files.realPath path)] }) := by
  rw [loadWith, run_bind_of_ok (run_isVisited hseen)]
  rfl

variable (hnew : progress.visited.any (files.realPath path).same = false)
include hnew

lemma run_loadWith_refused {failure : Failure}
    (h : readDirectives files (files.realPath path) = .error failure) :
    (loadWith files (fuel + 1) path).run progress = (.error failure,
      ⟨progress.visited ++ [files.realPath path], progress.reads ++ [files.realPath path],
        progress.log⟩) := by
  rw [loadWith, run_bind_of_ok (run_isVisited hnew)]
  refine (run_bind_of_ok (run_markVisited _ _)).trans ?_
  refine (run_bind_of_ok (run_readFile files _ _)).trans ?_
  exact run_bind_of_error (run_directivesOf h _)

lemma run_loadWith_read {d : Directives}
    (h : readDirectives files (files.realPath path) = .ok d) :
    (loadWith files (fuel + 1) path).run progress =
      (do
        let below ← d.imports.foldlM (fun (acc : Document) written => return acc.add (← loadWith
          files fuel (importTarget files (files.realPath path).parent written)))
          (.start (files.realPath path) d)
        return below.over d.content : Run Document).run
        ⟨progress.visited ++ [files.realPath path], progress.reads ++ [files.realPath path],
          progress.log ++ schemaLog d ++
            [.loadedDocument (files.realPath path) d.imports.length]⟩ := by
  rw [loadWith, run_bind_of_ok (run_isVisited hnew)]
  refine (run_bind_of_ok (run_markVisited _ _)).trans ?_
  refine (run_bind_of_ok (run_readFile files _ _)).trans ?_
  refine (run_bind_of_ok (run_directivesOf h _)).trans ?_
  refine (run_bind_of_ok (run_noteSchema d _)).trans ?_
  exact run_bind_of_ok rfl

end

section

variable {files : FileSystem} (hfinite : files.Finite)

def Runs (run : Run Document) (progress : Progress) (result : Except Failure Document)
    (met : List Path) (events : Log) : Prop :=
  run.run progress = (result,
    ⟨progress.visited ++ met, progress.reads ++ met, progress.log ++ events⟩)

lemma exists_tracesAll {load : Path → Run Document} {bound : Nat}
    (hload : ∀ progress path, unvisited files progress.visited < bound →
      ∃ visit : Visit, visit.Traces files progress.visited path ∧
        Runs (load path) progress visit.result visit.reads visit.log)
    (dir : Path) (imports : List String) (acc : Document) (progress : Progress)
    (hbound : unvisited files progress.visited < bound) :
    ∃ below, TracesAll files progress.visited dir imports below ∧
      Runs (imports.foldlM (fun acc written =>
        return acc.add (← load (importTarget files dir written))) acc) progress
        (results acc below) (readsOf below) (logOf below) := by
  induction imports generalizing acc progress with
  | nil =>
    refine ⟨[], trivial, ?_⟩
    rw [Runs, readsOf, logOf, List.append_nil, List.append_nil, List.append_nil]
    rfl
  | cons written imports ih =>
    obtain ⟨visit, htraces, hrun⟩ := hload progress (importTarget files dir written) hbound
    rw [Runs] at hrun
    cases hresult : visit.result with
    | error failure =>
      refine ⟨[visit], tracesAll_cons.mpr ⟨htraces, .inr ⟨failure, hresult, rfl⟩⟩, ?_⟩
      rw [hresult] at hrun
      rw [Runs, List.foldlM_cons, results, hresult, readsOf, readsOf, logOf, logOf,
        List.append_nil, List.append_nil]
      exact run_bind_of_error (run_bind_of_error hrun)
    | ok imported =>
      have hless := (unvisited_append_le files progress.visited visit.reads).trans_lt hbound
      obtain ⟨below, hbelow, hrest⟩ := ih (acc.add imported)
        ⟨progress.visited ++ visit.reads, progress.reads ++ visit.reads, progress.log ++ visit.log⟩
        hless
      refine ⟨visit :: below, tracesAll_cons.mpr ⟨htraces, .inl ⟨imported, hresult, hbelow⟩⟩, ?_⟩
      rw [hresult] at hrun
      rw [Runs] at hrest ⊢
      rw [List.foldlM_cons, results, hresult, readsOf, logOf, ← List.append_assoc,
        ← List.append_assoc, ← List.append_assoc, ← hrest]
      refine (run_bind_of_ok ?_)
      rw [run_bind_of_ok hrun]
      rfl

include hfinite

lemma exists_traces (fuel : Nat) (progress : Progress) (path : Path)
    (hfuel : unvisited files progress.visited < fuel) :
    ∃ visit : Visit, visit.Traces files progress.visited path ∧
      Runs (loadWith files fuel path) progress visit.result visit.reads visit.log := by
  -- Each level reads a file that was not read before, so there are fewer of these one level down.
  induction fuel generalizing progress path with
  | zero => exact absurd hfuel (Nat.not_lt_zero _)
  | succ fuel ih =>
    let here := files.realPath path
    cases hseen : progress.visited.any here.same with
    | true =>
      refine ⟨.skipped here, ⟨rfl, hseen⟩, ?_⟩
      rw [Runs, run_loadWith_visited fuel hseen, Visit.reads, List.append_nil, List.append_nil]
      rfl
    | false =>
      cases hdirectives : readDirectives files here with
      | error failure =>
        refine ⟨.refused here failure, ⟨rfl, hseen, hdirectives⟩, ?_⟩
        rw [Runs, run_loadWith_refused fuel hseen hdirectives, Visit.log, List.append_nil]
        rfl
      | ok d =>
        obtain ⟨source, hsource, -⟩ := readDirectives_eq_ok.mp hdirectives
        obtain ⟨q, hq, hsame⟩ := hfinite.listed path source hsource
        have hless := unvisited_lt hseen hq hsame
        obtain ⟨below, hbelow, hrun⟩ := exists_tracesAll ih here.parent d.imports (.start here d)
          ⟨progress.visited ++ [here], progress.reads ++ [here],
            progress.log ++ schemaLog d ++ [.loadedDocument here d.imports.length]⟩
          (Nat.lt_of_lt_of_le hless (Nat.le_of_lt_succ hfuel))
        refine ⟨.entered here d below, ⟨rfl, hseen, hdirectives, hbelow⟩, ?_⟩
        rw [Runs] at hrun ⊢
        rw [run_loadWith_read fuel hseen hdirectives, run_over hrun]
        simp [Visit.result, Visit.reads, Visit.log]

lemma exists_visit (entry : Path) (log : Log) :
    ∃ visit : Visit, visit.Traces files [] (files.realPath entry) ∧
      Runs (loadWith files (files.files.length + 1) (files.realPath entry)) ⟨[], [], log⟩
        visit.result visit.reads visit.log := by
  apply exists_traces hfinite _ ⟨[], [], log⟩
  exact Nat.lt_succ_of_le (List.length_filter_le _ _)

end

section

variable {files : FileSystem}

structure Fresh (files : FileSystem) (visited reads : List Path) : Prop where
  new : ∀ r ∈ reads, visited.any r.same = false
  distinct : reads.Pairwise fun p q => p.same q = false
  canonical : ∀ r ∈ reads, ∃ p, r = files.realPath p

lemma Fresh.nil (files : FileSystem) (visited : List Path) : Fresh files visited [] :=
  ⟨fun _ h => absurd h List.not_mem_nil, .nil, fun _ h => absurd h List.not_mem_nil⟩

lemma Fresh.single {visited : List Path} {here path : Path} (hpath : here = files.realPath path)
    (hnew : visited.any here.same = false) : Fresh files visited [here] := by
  refine ⟨fun r hr => ?_, List.pairwise_singleton _ _, fun r hr => ?_⟩
  · obtain rfl := List.mem_singleton.mp hr
    exact hnew
  · obtain rfl := List.mem_singleton.mp hr
    exact ⟨path, hpath⟩

lemma Fresh.apart {visited reads : List Path} (h : Fresh files visited reads) {r p : Path}
    (hr : r ∈ reads) (hp : p ∈ visited) : r.same p = false ∧ p.same r = false := by
  have hnot := List.any_eq_false.mp (h.new r hr) p hp
  rw [Bool.eq_false_iff, Bool.eq_false_iff]
  exact ⟨hnot, fun hsame => hnot (Path.same_symm hsame)⟩

lemma Fresh.append {visited reads more : List Path} (h : Fresh files visited reads)
    (hmore : Fresh files (visited ++ reads) more) : Fresh files visited (reads ++ more) := by
  have hapart : ∀ r ∈ more, visited.any r.same = false ∧ reads.any r.same = false := by
    intro r hr
    have hnew := hmore.new r hr
    rwa [List.any_append, Bool.or_eq_false_iff] at hnew
  refine ⟨fun r hr => ?_, List.pairwise_append.mpr ⟨h.distinct, hmore.distinct, ?_⟩, fun r hr => ?_⟩
  · exact (List.mem_append.mp hr).elim (h.new r) fun hr => (hapart r hr).1
  · intro p hp q hq
    have hnot := List.any_eq_false.mp (hapart q hq).2 p hp
    rw [Bool.eq_false_iff]
    exact fun hsame => hnot (Path.same_symm hsame)
  · exact (List.mem_append.mp hr).elim (h.canonical r) (hmore.canonical r)

mutual

lemma fresh_reads : (visit : Visit) → ∀ {visited path}, visit.Traces files visited path →
    Fresh files visited visit.reads
  | .skipped _, _, _, _ => .nil _ _
  | .refused _ _, _, _, h => .single h.1 h.2.1
  | .entered _ _ below, _, _, ⟨hpath, hnew, _, hbelow⟩ =>
    (Fresh.single hpath hnew).append (fresh_readsOf below hbelow)

lemma fresh_readsOf : (below : List Visit) → ∀ {visited dir imports},
    TracesAll files visited dir imports below → Fresh files visited (readsOf below)
  | [], _, _, _, _ => .nil _ _
  | visit :: rest, _, _, _ :: _, h => by
    obtain ⟨hvisit, ⟨imported, -, hrest⟩ | ⟨failure, -, rfl⟩⟩ := tracesAll_cons.mp h
    · exact (fresh_reads visit hvisit).append (fresh_readsOf rest hrest)
    · rw [readsOf, readsOf, List.append_nil]
      exact fresh_reads visit hvisit

end

mutual

lemma traces_unique : (visit : Visit) → ∀ {visited path other},
    visit.Traces files visited path → other.Traces files visited path → visit = other
  | .skipped _, _, _, .skipped _, h, h' => congrArg Visit.skipped (h.1.trans h'.1.symm)
  | .skipped _, _, _, .refused _ _, ⟨rfl, h⟩, ⟨rfl, h', _⟩
  | .skipped _, _, _, .entered _ _ _, ⟨rfl, h⟩, ⟨rfl, h', _⟩
  | .refused _ _, _, _, .skipped _, ⟨rfl, h', _⟩, ⟨rfl, h⟩
  | .entered _ _ _, _, _, .skipped _, ⟨rfl, h', _⟩, ⟨rfl, h⟩ => by
    rw [h] at h'
    cases h'
  | .refused _ _, _, _, .refused _ _, ⟨rfl, _, h⟩, ⟨rfl, _, h'⟩ => by
    rw [h] at h'
    cases h'
    rfl
  | .refused _ _, _, _, .entered _ _ _, ⟨rfl, _, h⟩, ⟨rfl, _, h', _⟩
  | .entered _ _ _, _, _, .refused _ _, ⟨rfl, _, h', _⟩, ⟨rfl, _, h⟩ => by
    rw [h] at h'
    cases h'
  | .entered _ _ below, _, _, .entered _ _ _, ⟨rfl, _, h, hbelow⟩, ⟨rfl, _, h', hbelow'⟩ => by
    rw [h] at h'
    cases h'
    rw [tracesAll_unique below hbelow hbelow']

lemma tracesAll_unique : (below : List Visit) → ∀ {visited dir imports others},
    TracesAll files visited dir imports below → TracesAll files visited dir imports others →
    below = others
  | [], _, _, [], [], _, _ => rfl
  | visit :: rest, _, _, _ :: _, other :: others, h, h' => by
    obtain ⟨hvisit, hrest⟩ := tracesAll_cons.mp h
    obtain ⟨hother, hothers⟩ := tracesAll_cons.mp h'
    obtain rfl := traces_unique visit hvisit hother
    obtain ⟨imported, hresult, hrest⟩ | ⟨failure, hresult, rfl⟩ := hrest
    · obtain ⟨_, -, hothers⟩ | ⟨failure, hfailed, -⟩ := hothers
      · rw [tracesAll_unique rest hrest hothers]
      · rw [hresult] at hfailed
        cases hfailed
    · obtain ⟨imported, hloaded, -⟩ | ⟨_, -, rfl⟩ := hothers
      · rw [hresult] at hloaded
        cases hloaded
      · rfl

end

structure SameOn (documents : Path → Prop) (files other : FileSystem) : Prop where
  isFile : other.isFile = files.isFile
  canonical : other.canonical? = files.canonical?
  read : ∀ p, documents p → other.read p = files.read p

section

variable {documents : Path → Prop} {other : FileSystem} (h : SameOn documents files other)
include h

lemma SameOn.realPath : other.realPath = files.realPath := by
  funext path
  rw [FileSystem.realPath, FileSystem.realPath, h.canonical]

lemma SameOn.importTarget : importTarget other = importTarget files := by
  funext dir written
  rw [Import.importTarget, Import.importTarget, h.realPath]

lemma SameOn.readDirectives {p : Path} (hp : documents p) :
    readDirectives other p = readDirectives files p := by
  rw [Import.readDirectives, Import.readDirectives, h.read p hp]

mutual

lemma SameOn.traces : (visit : Visit) → ∀ {visited path},
    (∀ r ∈ visit.reads, documents r) → visit.Traces files visited path →
    visit.Traces other visited path
  | .skipped _, _, _, _, ⟨hpath, hseen⟩ => ⟨h.realPath ▸ hpath, hseen⟩
  | .refused p _, _, _, hreads, ⟨hpath, hnew, hread⟩ => by
    have hp := hreads p List.mem_cons_self
    exact ⟨h.realPath ▸ hpath, hnew, (h.readDirectives hp).trans hread⟩
  | .entered p d below, _, _, hreads, ⟨hpath, hnew, hread, hbelow⟩ => by
    rw [Visit.reads, List.forall_mem_cons] at hreads
    exact ⟨h.realPath ▸ hpath, hnew, (h.readDirectives hreads.1).trans hread,
      SameOn.tracesAll below hreads.2 hbelow⟩

lemma SameOn.tracesAll : (below : List Visit) → ∀ {visited dir imports},
    (∀ r ∈ readsOf below, documents r) → TracesAll files visited dir imports below →
    TracesAll other visited dir imports below
  | [], _, _, [], _, _ => trivial
  | visit :: rest, _, _, written :: imports, hreads, htraces => by
    rw [readsOf, List.forall_mem_append] at hreads
    obtain ⟨hvisit, hrest⟩ := tracesAll_cons.mp htraces
    rw [tracesAll_cons, h.importTarget]
    refine ⟨SameOn.traces visit hreads.1 hvisit, ?_⟩
    obtain ⟨imported, hresult, hrest⟩ | hfailed := hrest
    · exact .inl ⟨imported, hresult, SameOn.tracesAll rest hreads.2 hrest⟩
    · exact .inr hfailed

end

end

def Document.within (d : Document) (dir : Path) : Document :=
  { d with metadata := { d.metadata with baseDir := dir } }

/-- A finite tree of visits accounts for all that a load does, and no canonical path is read
twice. -/
structure Accounts (files : FileSystem) (entry : Path) (log : Log) (visit : Visit) : Prop where
  traces : visit.Traces files [] (files.realPath entry)
  once : ∀ p, ((loadDocument files entry).run ⟨[], [], log⟩).2.reads.countP
    (fun r => (files.realPath r).same p) ≤ 1
  outcome : (loadDocument files entry).run ⟨[], [], log⟩ =
    if files.isFile (files.realPath entry) then
      (visit.result.map (·.within (files.realPath entry).parent),
        ⟨visit.reads, visit.reads, log ++ visit.log⟩)
    else (.error (.fileNotFound (files.realPath entry)), ⟨[], [], log⟩)

lemma run_loadDocument (hfinite : files.Finite) {entry : Path} {visit : Visit}
    (h : visit.Traces files [] (files.realPath entry)) (log : Log) :
    (loadDocument files entry).run ⟨[], [], log⟩ =
      if files.isFile (files.realPath entry) then
        (visit.result.map (·.within (files.realPath entry).parent),
          ⟨visit.reads, visit.reads, log ++ visit.log⟩)
      else (.error (.fileNotFound (files.realPath entry)), ⟨[], [], log⟩) := by
  rw [loadDocument]
  cases hfile : files.isFile (files.realPath entry) with
  | false => rfl
  | true =>
    obtain ⟨other, hother, hrun⟩ := exists_visit hfinite entry log
    obtain rfl := traces_unique visit h hother
    rw [Runs, List.nil_append] at hrun
    rw [if_pos rfl]
    cases hresult : visit.result with
    | error failure =>
      rw [hresult] at hrun
      exact run_bind_of_error hrun
    | ok loaded =>
      rw [hresult] at hrun
      exact run_bind_of_ok hrun

lemma result_of_loadDocument (hfinite : files.Finite) {entry : Path} {visit : Visit}
    (h : visit.Traces files [] (files.realPath entry)) {log : Log} {loaded : Document}
    {progress : Progress}
    (hload : (loadDocument files entry).run ⟨[], [], log⟩ = (.ok loaded, progress)) :
    ∃ d, visit.result = .ok d ∧ loaded = d.within (files.realPath entry).parent := by
  rw [run_loadDocument hfinite h] at hload
  split at hload
  · obtain ⟨d, hd, rfl⟩ := map_eq_ok.mp (Prod.mk.inj hload).1
    exact ⟨d, hd, rfl⟩
  · cases (Prod.mk.inj hload).1

variable (hcanonical : files.Canonical)
include hcanonical

lemma countP_reads_le {visited reads : List Path} (h : Fresh files visited reads) (p : Path) :
    reads.countP (fun r => (files.realPath r).same p) ≤ 1 := by
  have hown : ∀ r ∈ reads, (files.realPath r).same r = true := by
    intro r hr
    obtain ⟨path, rfl⟩ := h.canonical r hr
    exact hcanonical.idempotent path
  have hdistinct := h.distinct
  clear h
  induction reads with
  | nil => exact Nat.zero_le _
  | cons r reads ih =>
    obtain ⟨hr, hreads⟩ := List.forall_mem_cons.mp hown
    obtain ⟨hapart, hdistinct⟩ := List.pairwise_cons.mp hdistinct
    by_cases hp : (files.realPath r).same p = true
    · have hnone : reads.countP (fun r => (files.realPath r).same p) = 0 := by
        rw [List.countP_eq_zero]
        intro q hq hsame
        have hrq : r.same q = true := Path.same_trans (Path.same_symm hr)
          (Path.same_trans hp (Path.same_trans (Path.same_symm hsame) (hreads q hq)))
        rw [hapart q hq] at hrq
        cases hrq
      rw [List.countP_cons, hnone, if_pos hp]
    · rw [List.countP_cons, if_neg hp]
      exact ih hreads hdistinct

lemma once_of_traces {entry : Path} {visit : Visit}
    (h : visit.Traces files [] (files.realPath entry)) (log : Log) (p : Path) :
    ((loadDocument files entry).run ⟨[], [], log⟩).2.reads.countP
      (fun r => (files.realPath r).same p) ≤ 1 := by
  rw [run_loadDocument hcanonical.finite h]
  split
  · exact countP_reads_le hcanonical (fresh_reads visit h) p
  · exact Nat.zero_le 1

theorem loadDocument_terminates (entry : Path) (log : Log) :
    ∃! visit, Accounts files entry log visit := by
  obtain ⟨visit, htraces, -⟩ := exists_visit hcanonical.finite entry log
  refine ⟨visit, ⟨htraces, once_of_traces hcanonical htraces log,
    run_loadDocument hcanonical.finite htraces log⟩, ?_⟩
  exact fun other hother => traces_unique other hother.traces htraces

end

def circular : Listing := [
  (⟨"/m"⟩, .ok "@import:\n  - ./a\n  - m\n"),
  (⟨"/a"⟩, .ok "@import: /s/../m\n")]

theorem loadDocument_terminates_circular :
    circular.fileSystem.Canonical ∧ (∃! visit, Accounts circular.fileSystem ⟨"/./m"⟩ [] visit) ∧
    ((loadDocument circular.fileSystem ⟨"/./m"⟩).run ⟨[], [], []⟩).2.reads = [⟨"/m"⟩, ⟨"/a"⟩] :=
  ⟨circular.canonical_fileSystem,
    loadDocument_terminates circular.canonical_fileSystem _ [], by cbv⟩

end LayeredConfig.Import
