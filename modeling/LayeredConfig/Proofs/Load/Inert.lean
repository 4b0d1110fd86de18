import LayeredConfig.Proofs.Import.Bare
import LayeredConfig.Proofs.Load.Stages
import LayeredConfig.Proofs.Resolution.Bare
import Mathlib

/-! Without a schema, annotations do not change what is loaded, where each name has one spelling. -/

namespace LayeredConfig.Load

open Ascription Outline Text

section

variable {ctx : Resolution.Context} {symbols : Mapping} {chains : Chains}
  (htidy : ∀ keys, chains keys → ∀ key ∈ keys, Tidy key)
include htidy

lemma strip_twice : ∀ keys, chains keys → ∀ key ∈ keys, strip (strip key) = strip key :=
  fun keys hkeys key hm => strip_of_unannotated (htidy keys hkeys key hm).single

lemma follows_resolveTwice (files : FileSystem) {n : Node} (hn : n.KeysIn chains) :
    Resolution.Follows ctx.registry ctx.place files (resolveTwice ctx symbols n)
      (resolveTwice (ctx.over files) symbols n.bare) := by
  let first : Resolution.Context := { ctx with symbols := none }
  let second : Resolution.Context := { ctx with symbols := some symbols }
  have hbare : Resolution.resolve (first.over files) n.bare =
      Resolution.resolve (first.over files) n :=
    Resolution.resolve_bare (first.over files) (strip_twice htidy) n hn
  have hfirst : Resolution.Follows ctx.registry ctx.place files (Resolution.resolve first n)
      (Resolution.resolve (first.over files) n.bare) := by
    rw [hbare]
    exact Resolution.follows_resolve first n
  exact .bind hfirst fun tree => Resolution.follows_resolve second tree

lemma run_resolveTwice_bare {request : Request} {bared : FileSystem} {d d' : Import.Document}
    (hd : Import.DocumentBare chains d d') {log last : Log} {result : Except Tag.Failure Node}
    (hrun : (resolveTwice (request.context d) request.symbols d.tree).run log = (result, last))
    (htags : request.registry.AgreeOn (request.context d).place bared last) :
    (resolveTwice (({ request with files := bared } : Request).context d') request.symbols
      d'.tree).run log = (result, last) := by
  have hcontext : ({ request with files := bared } : Request).context d' =
      (request.context d).over bared := by
    simp only [Request.context, Resolution.Context.over, hd.baseDir]
  have hfollows : Resolution.Follows (request.context d).registry (request.context d).place bared
      (resolveTwice (request.context d) request.symbols d.tree)
      (resolveTwice ((request.context d).over bared) request.symbols d.tree.bare) :=
    follows_resolveTwice htidy bared hd.keys
  -- The two documents differ in the annotations alone, which the first pass takes away.
  have hsame := hfollows.same log
  rw [hrun] at hsame
  rw [hcontext, hd.tree]
  exact hsame htags

lemma leftoverSchema_of_resolveTwice (hschema : ¬ chains [Import.schemaKey]) {n config : Node}
    (hn : n.KeysIn chains) (hcontainer : n.isContainer) {log log' : Log}
    (h : (resolveTwice ctx symbols n).run log = (.ok config, log')) :
    leftoverSchema config = none := by
  obtain ⟨first, between, hfirst, hsecond⟩ := run_bind_eq_ok.mp h
  cases n with
  | mapping fields =>
    obtain ⟨once, rfl, honce⟩ := Resolution.mapping_of_resolve hfirst
    obtain ⟨twice, rfl, htwice⟩ := Resolution.mapping_of_resolve hsecond
    have hfields : Node.FieldsKeysIn chains fields := hn
    have hnone : Fields.get? twice Import.schemaKey = none := by
      by_contra hsome
      obtain ⟨value, hvalue⟩ := Option.ne_none_iff_exists'.mp hsome
      obtain ⟨name, hname, htwiceEq⟩ :=
        htwice _ (List.mem_map_of_mem (Fields.mem_of_get? hvalue))
      obtain ⟨key, hkey, rfl⟩ := honce name hname
      obtain ⟨field, hfield, rfl⟩ := List.mem_map.mp hkey
      have hchain := (Node.fieldsKeysIn_iff.mp hfields field hfield).1
      rw [strip_twice htidy _ hchain _ List.mem_cons_self] at htwiceEq
      have htidyKeys : ∀ key, chains [key] → Tidy key :=
        fun key hk => htidy [key] hk key List.mem_cons_self
      have hspelled := Import.directive_spelled htidyKeys hfields Import.isDirective_schemaKey
        field.1 hkey (htwiceEq.symm.trans Import.isDirective_schemaKey.plain.symm)
      exact hschema (hspelled ▸ hchain)
    simp only [leftoverSchema, hnone]
  | sequence items =>
    obtain ⟨once, rfl⟩ := Resolution.sequence_of_resolve hfirst
    obtain ⟨twice, rfl⟩ := Resolution.sequence_of_resolve hsecond
    rfl
  | _ => cases hcontainer

end

def Request.placeOf (request : Request) (entry : Path) : Tag.Place :=
  ⟨request.source.environment, (request.files.realPath (request.entryPath entry)).parent,
    request.files⟩

/-- Documents without a schema load the same configuration with and without their annotations, if
each name has one spelling and no tag that is run can tell the files apart. -/
theorem load_bare {request : Request} {bared : FileSystem} {documents : Path → Prop} {log : Log}
    (hentry : ∀ entry, request.entry = some entry →
      documents (request.files.realPath (request.files.realPath (request.entryPath entry))))
    (hdocuments : Import.Droppable request.files documents)
    (hbared : Import.Bared documents request.files bared)
    (htags : ∀ entry, request.entry = some entry →
      request.registry.AgreeOn (request.placeOf entry) bared ((load request).run log).2) :
    ((load request).run log).1.map Loaded.config =
      ((load { request with files := bared }).run log).1.map Loaded.config := by
  have htidy : ∀ keys, Import.chainsOf request.files documents keys → ∀ key ∈ keys, Tidy key :=
    fun keys hkeys => hdocuments.tidyKeys hkeys
  obtain hnone | ⟨entry, hsome⟩ := Option.eq_none_or_eq_some request.entry
  · simp only [load, hnone]
  · have himport := Import.tracks_loadDocument hdocuments hbared (hentry entry hsome)
    obtain ⟨hagree, hprogress⟩ := himport ⟨[], [], log ++ request.source.log⟩
    rcases hread : (Import.loadDocument request.files (request.entryPath entry)).run
      ⟨[], [], log ++ request.source.log⟩ with ⟨read, progress⟩
    rcases hread' : (Import.loadDocument bared (request.entryPath entry)).run
      ⟨[], [], log ++ request.source.log⟩ with ⟨read', progress'⟩
    rw [hread, hread'] at hagree hprogress
    obtain rfl : progress = progress' := hprogress
    cases hagree with
    | error failure =>
      rw [load_of_unread request hsome hread,
        load_of_unread { request with files := bared } hsome hread']
    | @ok d d' hd =>
      obtain ⟨hd, hcontainer⟩ := hd
      rcases hrun : (resolveTwice (request.context d) request.symbols d.tree).run progress.log with
        ⟨result, last⟩
      have hleftover : ∀ tree, result = .ok tree → leftoverSchema tree = none := by
        rintro tree rfl
        exact leftoverSchema_of_resolveTwice htidy hdocuments.undeclared hd.keys hcontainer hrun
      obtain ⟨hconfig, hlast⟩ := load_unchecked request hsome hread hrun hd.schema.1 hleftover
      have hplace : request.placeOf entry = (request.context d).place := by
        rw [Request.placeOf, Request.context, Import.baseDir_of_loadDocument hread]
      have htags := htags entry hsome
      rw [hlast, hplace] at htags
      have hrun' := run_resolveTwice_bare htidy hd hrun htags
      obtain ⟨hconfig', -⟩ := load_unchecked { request with files := bared } hsome hread' hrun'
        hd.schema.2 hleftover
      rw [hconfig, hconfig']

lemma agreeOn_standard {documents : Path → Prop} {place : Tag.Place} {bared : FileSystem}
    {log : Log} (hbared : Import.Bared documents place.files bared)
    (hrest : ∀ path, ¬ documents path → bared.read path = place.files.read path)
    (hfile : ∀ args, .runningTag "file" args ∈ log →
      ¬ documents (place.files.realPath (place.baseDir.join ⟨args.headD ""⟩))) :
    Tag.standard.AgreeOn place bared log := by
  have hstandard : Tag.standard = [("rgb", Tag.rgb), ("file", Tag.file)] := by cbv
  intro name args hcall handler hget earlier
  rw [hstandard, Fields.get?_cons, Fields.get?_cons] at hget
  split at hget
  · cases hget
    rfl
  · split at hget
    · next hname =>
      cases hget
      obtain rfl : name = "file" := hname
      simp only [Tag.file, hbared.isFile, Import.realPath_bared hbared, hrest _ (hfile args hcall)]
    · cases hget

def mainPath : Path := ⟨"/cfg/main.wafl"⟩

def libraryPath : Path := ⟨"/cfg/lib.wafl"⟩

def notePath : Path := ⟨"/cfg/note.txt"⟩

def twoFiles (main library : String) : FileSystem where
  read path :=
    if path = mainPath then .ok main
    else if path = libraryPath then .ok library
    else if path = notePath then .ok "app<App>: a note"
    else .error ⟨.notFound, "no such file"⟩
  isFile path := path = mainPath ∨ path = libraryPath ∨ path = notePath
  canonical? _ := none
  files := [mainPath, libraryPath, notePath]

def twoFilesRequest (files : FileSystem) : Request where
  entry := some mainPath
  workingDir := ⟨"/"⟩
  files := files
  source := .given .empty
  symbols := []
  registry := Tag.standard

def eitherPath (path : Path) : Prop := path = mainPath ∨ path = libraryPath

lemma bared_twoFiles {main main' library library' : String}
    (hmain : lines main'.toList = (lines main.toList).map bareLine)
    (hlibrary : lines library'.toList = (lines library.toList).map bareLine) :
    Import.Bared eitherPath (twoFiles main library) (twoFiles main' library') where
  isFile := rfl
  canonical := rfl
  listed := rfl
  texts := by
    rintro path (rfl | rfl)
    · exact .ok hmain
    · exact .ok hlibrary

lemma chainsOf_twoFiles {main library : String} {keys : List String}
    (h : Import.chainsOf (twoFiles main library) eitherPath keys) :
    keys ∈ keyChains (marks main.toList) ++ keyChains (marks library.toList) := by
  obtain ⟨path, source, rfl | rfl, hread, hkeys⟩ := h
  · cases hread
    exact List.mem_append_left _ hkeys
  · cases hread
    exact List.mem_append_right _ hkeys

def annotatedMain : String := "@import: /cfg/lib.wafl\napp<App>:\n  port<Port>: 80\n"

def annotatedLibrary : String := "app<App>:\n  note: !file(/cfg/note.txt)\n"

def annotatedChains : List (List String) :=
  [["@import"], ["app<App>"], ["app<App>", "port<Port>"], ["app<App>"], ["app<App>", "note"]]

lemma keyChains_annotated :
    keyChains (marks annotatedMain.toList) ++ keyChains (marks annotatedLibrary.toList) =
      annotatedChains := by
  cbv

lemma alike_annotated : ∀ keys ∈ annotatedChains, ∀ keys' ∈ annotatedChains,
    keys.map strip = keys'.map strip → keys = keys' := by
  decide +kernel

lemma droppable_annotated :
    Import.Droppable (twoFiles annotatedMain annotatedLibrary) eitherPath := by
  refine ⟨?_, ?_, ?_, ?_⟩
  · rintro path source (rfl | rfl) hread written hwritten
    · cases hread
      have himports : (Import.Directives.split (parse annotatedMain.toList)).imports =
          ["/cfg/lib.wafl"] := by
        cbv
      rw [himports, List.mem_singleton] at hwritten
      rw [hwritten]
      exact .inr (by cbv)
    · cases hread
      have himports : (Import.Directives.split (parse annotatedLibrary.toList)).imports = [] := by
        cbv
      rw [himports] at hwritten
      cases hwritten
  · rintro path source (rfl | rfl) hread
    · cases hread
      have hkeys : (marks annotatedMain.toList).filterMap markKey? =
          ["@import", "app<App>", "port<Port>"] := by
        cbv
      rw [tidyMarks_iff, hkeys]
      decide +kernel
    · cases hread
      have hkeys : (marks annotatedLibrary.toList).filterMap markKey? = ["app<App>", "note"] := by
        cbv
      rw [tidyMarks_iff, hkeys]
      decide +kernel
  · intro hschema
    have hm := chainsOf_twoFiles hschema
    rw [keyChains_annotated] at hm
    revert hm
    decide +kernel
  · intro keys keys' hkeys hkeys'
    have hm := chainsOf_twoFiles hkeys
    have hm' := chainsOf_twoFiles hkeys'
    rw [keyChains_annotated] at hm hm'
    exact alike_annotated keys hm keys' hm'

def twoFilesConfig (files : FileSystem) : Except Failure Node :=
  ((load (twoFilesRequest files)).run []).1.map Loaded.config

def bareMain : String := "@import: /cfg/lib.wafl\napp:\n  port: 80\n"

def bareLibrary : String := "app:\n  note: !file(/cfg/note.txt)\n"

lemma bared_annotated : Import.Bared eitherPath (twoFiles annotatedMain annotatedLibrary)
    (twoFiles bareMain bareLibrary) := by
  apply bared_twoFiles <;> cbv

lemma read_twoFiles {main main' library library' : String} {path : Path}
    (h : ¬ eitherPath path) :
    (twoFiles main' library').read path = (twoFiles main library).read path := by
  obtain ⟨hmain, hlibrary⟩ := not_or.mp h
  simp only [twoFiles, if_neg hmain, if_neg hlibrary]

lemma realPath_note {main library : String} (dir : Path) :
    (twoFiles main library).realPath (dir.join notePath) = notePath := by
  have habsolute : notePath.isAbsolute = true := by cbv
  have hjoin : dir.join notePath = notePath := by simp [Path.join, habsolute]
  rw [hjoin]
  cbv

lemma log_annotated :
    ((load (twoFilesRequest (twoFiles annotatedMain annotatedLibrary))).run []).2 =
      [.loadedDocument mainPath 1, .loadedDocument libraryPath 0,
        .runningTag "file" ["/cfg/note.txt"]] := by
  cbv

theorem load_bare_sample :
    twoFilesConfig (twoFiles annotatedMain annotatedLibrary) =
      .ok (.mapping [("app", .mapping [("note", .string "app<App>: a note"),
        ("port", .int 80)])]) := by
  have hbare : twoFilesConfig (twoFiles bareMain bareLibrary) =
      .ok (.mapping [("app", .mapping [("note", .string "app<App>: a note"),
        ("port", .int 80)])]) := by
    cbv
  have hentry : eitherPath ((twoFiles annotatedMain annotatedLibrary).realPath
      ((twoFiles annotatedMain annotatedLibrary).realPath
        ((twoFilesRequest (twoFiles annotatedMain annotatedLibrary)).entryPath mainPath))) :=
    .inl (by cbv)
  rw [← hbare]
  refine load_bare ?_ droppable_annotated bared_annotated ?_
  · rintro entry ⟨⟩
    exact hentry
  · rintro entry ⟨⟩
    refine agreeOn_standard bared_annotated (fun path h => read_twoFiles h) fun args hcall => ?_
    rw [log_annotated] at hcall
    obtain rfl : args = ["/cfg/note.txt"] := by simpa using hcall
    change ¬ eitherPath ((twoFiles annotatedMain annotatedLibrary).realPath (Path.join _ notePath))
    rw [realPath_note]
    simp [eitherPath, notePath, mainPath, libraryPath]

structure Apart (main library main' library' : String) (result result' : Except Failure Node) :
    Prop where
  bared : Import.Bared eitherPath (twoFiles main library) (twoFiles main' library')
  keys : ∀ key ∈ (marks main.toList ++ marks library.toList).filterMap markKey?,
    key ≠ Import.schemaKey ∧ Named key
  annotated : twoFilesConfig (twoFiles main library) = result
  bare : twoFilesConfig (twoFiles main' library') = result'
  different : result ≠ result'

lemma Apart.of_keys {main library main' library' : String} {result result' : Except Failure Node}
    (keys : List String) (hmain : lines main'.toList = (lines main.toList).map bareLine)
    (hlibrary : lines library'.toList = (lines library.toList).map bareLine)
    (hkeys : (marks main.toList ++ marks library.toList).filterMap markKey? = keys)
    (hnamed : ∀ key ∈ keys, key ≠ Import.schemaKey ∧ Named key)
    (hannotated : twoFilesConfig (twoFiles main library) = result)
    (hbare : twoFilesConfig (twoFiles main' library') = result') (hdifferent : result ≠ result') :
    Apart main library main' library' result result' :=
  ⟨bared_twoFiles hmain hlibrary, hkeys ▸ hnamed, hannotated, hbare, hdifferent⟩

/-- A name that only one of two files annotates is not merged, the fields of a key that another
spelling replaces are still resolved, a blank before an annotation belongs to the name, and `!file`
yields a document as it is written. -/
theorem load_not_bare :
    Apart annotatedMain "app:\n  name: x\n" bareMain "app:\n  name: x\n"
      (.ok (.mapping [("app", .mapping [("port", .int 80)])]))
      (.ok (.mapping [("app", .mapping [("name", .string "x"), ("port", .int 80)])])) ∧
    Apart "a<T>: !b()\na: 5\n" "" "a: !b()\na: 5\n" ""
      (.error (.tag (.unknown "b"))) (.ok (.mapping [("a", .int 5)])) ∧
    Apart "a <T>: 5\n" "" "a : 5\n" ""
      (.ok (.mapping [("a ", .int 5)])) (.ok (.mapping [("a", .int 5)])) ∧
    Apart "a<T>: !file(/cfg/main.wafl)\n" "" "a: !file(/cfg/main.wafl)\n" ""
      (.ok (.mapping [("a", .string "a<T>: !file(/cfg/main.wafl)\n")]))
      (.ok (.mapping [("a", .string "a: !file(/cfg/main.wafl)\n")])) := by
  refine ⟨?_, ?_, ?_, ?_⟩
  · exact .of_keys ["@import", "app<App>", "port<Port>", "app", "name"] (by cbv) (by cbv) (by cbv)
      (by decide +kernel) (by cbv) (by cbv) (by simp)
  · exact .of_keys ["a<T>", "a"] (by cbv) (by cbv) (by cbv) (by decide +kernel)
      (by cbv) (by cbv) (by simp)
  · exact .of_keys ["a <T>"] (by cbv) (by cbv) (by cbv) (by decide +kernel)
      (by cbv) (by cbv) (by simp)
  · exact .of_keys ["a<T>"] (by cbv) (by cbv) (by cbv) (by decide +kernel)
      (by cbv) (by cbv) (by simp)

end LayeredConfig.Load
