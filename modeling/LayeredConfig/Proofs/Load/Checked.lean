import LayeredConfig.FileSystem.Listing
import LayeredConfig.Proofs.Ascription.Recorded
import LayeredConfig.Proofs.Load.Stages
import LayeredConfig.Proofs.Schema.Modes
import Mathlib

/-! Which annotated values a successful load has checked: those that their recorded paths lead back
to. -/

namespace LayeredConfig

open Ascription Node

namespace Schema

lemma checkPath_of_checkPaths {doc : Node} {schema : Mapping} {annotations : Fields String}
    (h : checkPaths doc schema annotations = .ok ()) {path typeName : String}
    (hm : (path, typeName) ∈ annotations) : checkPath doc schema path typeName = .ok () := by
  induction annotations with
  | nil => cases hm
  | cons annotation rest ih =>
    obtain ⟨_, hfirst, hrest⟩ := bind_eq_ok.mp h
    obtain rfl | hm := List.mem_cons.mp hm
    · exact hfirst
    · exact ih hrest hm

lemma checkPaths_of_forall {doc : Node} {schema : Mapping} {annotations : Fields String}
    (h : ∀ path typeName, (path, typeName) ∈ annotations →
      checkPath doc schema path typeName = .ok ()) :
    checkPaths doc schema annotations = .ok () := by
  induction annotations with
  | nil => rfl
  | cons annotation rest ih =>
    have hrest := ih fun path typeName hm => h path typeName (List.mem_cons_of_mem _ hm)
    exact bind_eq_ok.mpr ⟨(), h _ _ List.mem_cons_self, hrest⟩

lemma check_of_validate {doc : Node} {schema : Mapping} {annotations : Fields String}
    (h : validate doc schema annotations = .ok ()) {path typeName : String}
    (hrecord : Fields.get? annotations path = some typeName) {spec : Node}
    (hspec : Fields.get? schema typeName = some spec) {value : Node}
    (hvalue : doc.getPath? path = some value) (hnull : value ≠ .null) :
    check (.ofNode spec) path value = .ok () := by
  have hmem := Fields.mem_of_get? hrecord
  have hschema : schema ≠ [] := by
    rintro rfl
    cases hspec
  rw [validate_eq_checkPaths doc hschema (List.ne_nil_of_mem hmem)] at h
  have hpath := checkPath_of_checkPaths h hmem
  simpa only [checkPath, hspec, hvalue] using hpath

end Schema

namespace Load

theorem load_checks_findable {request : Request} {entry : Path} {log : Log}
    {document : Import.Document} {loaded : Loaded} {schema : Mapping}
    (hentry : request.entry = some entry)
    (hdocument : ((Import.loadDocument request.files (request.entryPath entry)).run
      ⟨[], [], log ++ request.source.log⟩).1 = .ok document)
    (hload : ((load request).run log).1 = .ok loaded)
    (hschema : loaded.metadata.schema = some schema)
    {keys : List String} {typeName : String} (hkeys : (keys, typeName) ∈ annotated document.tree)
    (hfindable : Findable keys)
    (hkept : ∀ recorded, Fields.get? (extract document.tree) (recordedPath keys) = some recorded →
      recorded = typeName)
    {spec : Node} (hspec : Fields.get? schema typeName = some spec)
    {value : Node} (hvalue : loaded.config.descend (keys.map finalName) = some value)
    (hnull : value ≠ .null) :
    Schema.check (.ofNode spec) (recordedPath keys) value = .ok () := by
  obtain ⟨document', hstages⟩ := load_stages hload
  obtain rfl : document' = document := hstages.document_eq hentry hdocument
  obtain ⟨recorded, hrecord⟩ := exists_get?_extract hkeys
  obtain rfl := hkept recorded hrecord
  have hfound : loaded.config.getPath? (recordedPath keys) = some value := by
    rw [getPath?, (pathKeys_recordedPath_iff (ne_nil_of_mem_annotated hkeys)).mpr hfindable, hvalue]
  exact Schema.check_of_validate (hstages.valid schema hschema) hrecord hspec hfound hnull

def requestOf (source : String) (port : Node) : Request where
  entry := some ⟨"/cfg/main.wafl"⟩
  workingDir := ⟨"/"⟩
  files := Listing.fileSystem [(⟨"/cfg/main.wafl"⟩, .ok source)]
  source := .given .empty
  symbols := [("port", port)]
  registry := Tag.standard

def serverRequest : Request :=
  requestOf "@schema:\n  Server:\n    port: int\nweb:\n  main<Server>:\n    port = $port\n" (.int 80)

def serverDocument : Import.Document where
  tree := .mapping [("web", .mapping [("main<Server>", .mapping [("port", .expression "$port")])])]
  metadata := ⟨[], some [("Server", .mapping [("port", .string "int")])], none, ⟨"/cfg"⟩⟩

theorem load_checks_server :
    Schema.check (.ofNode (.mapping [("port", .string "int")])) (recordedPath ["web", "main<Server>"])
      (.mapping [("port", .int 80)]) = .ok () := by
  have hentry : serverRequest.entry = some ⟨"/cfg/main.wafl"⟩ := rfl
  have hdocument : ((Import.loadDocument serverRequest.files
      (serverRequest.entryPath ⟨"/cfg/main.wafl"⟩)).run ⟨[], [], [] ++ serverRequest.source.log⟩).1 =
        .ok serverDocument := by
    cbv
  have hload : ((load serverRequest).run []).1 =
      .ok ⟨.mapping [("web", .mapping [("main", .mapping [("port", .int 80)])])],
        serverDocument.metadata⟩ := by
    cbv
  have hentries : annotated serverDocument.tree = [(["web", "main<Server>"], "Server")] := by
    cbv
  have hrecord : Fields.get? (extract serverDocument.tree) (recordedPath ["web", "main<Server>"]) =
      some "Server" := by
    cbv
  have hvalue : (Node.mapping [("web", .mapping [("main", .mapping [("port", .int 80)])])]).descend
      (["web", "main<Server>"].map finalName) = some (.mapping [("port", .int 80)]) := by
    cbv
  have hfindable : Findable ["web", "main<Server>"] :=
    ⟨by decide +kernel, by decide +kernel, .inr (by decide +kernel)⟩
  refine load_checks_findable hentry hdocument hload rfl (hentries ▸ List.mem_singleton_self _)
    hfindable ?_ rfl hvalue (by simp)
  intro recorded hother
  exact Option.some.inj (hother.symm.trans hrecord)

def dottedRequest : Request := requestOf "@schema:\n  T: string\na.b<T>: 5\n" .null

theorem load_accepts_dotted :
    ∃ document loaded, ((Import.loadDocument dottedRequest.files ⟨"/cfg/main.wafl"⟩).run ⟨[], [], []⟩).1 =
        .ok document ∧
      ((load dottedRequest).run []).1 = .ok loaded ∧
      loaded.metadata.schema = some [("T", .string "string")] ∧
      (["a.b<T>"], "T") ∈ annotated document.tree ∧
      loaded.config.descend [finalName "a.b<T>"] = some (.int 5) ∧
      Schema.check (.ofNode (.string "string")) "a.b" (.int 5) ≠ .ok () := by
  have hentries : annotated (.mapping [("a.b<T>", .int 5)]) = [(["a.b<T>"], "T")] := by
    cbv
  have hvalue : (Node.mapping [("a.b", .int 5)]).descend [finalName "a.b<T>"] = some (.int 5) := by
    cbv
  refine ⟨⟨.mapping [("a.b<T>", .int 5)], ⟨[], some [("T", .string "string")], none, ⟨"/cfg"⟩⟩⟩,
    ⟨.mapping [("a.b", .int 5)], ⟨[], some [("T", .string "string")], none, ⟨"/cfg"⟩⟩⟩,
    by cbv, by cbv, rfl, hentries ▸ List.mem_singleton_self _, hvalue, ?_⟩
  cbv
  exact fun h => by cases h

section

def chain (leaf : Node) : List String → Node
  | [] => leaf
  | key :: rest => .mapping [(key, chain leaf rest)]

abbrev five : Node := .int 5

lemma resolve_chain (ctx : Resolution.Context) (keys : List String) :
    Resolution.resolve ctx (chain five keys) = pure (chain five (keys.map strip)) := by
  induction keys with
  | nil => rfl
  | cons key rest ih => simp [chain, Resolution.resolve, Resolution.resolveFields, ih, Fields.insert]

lemma resolveTwice_chain (ctx : Resolution.Context) (symbols : Mapping) (keys : List String)
    (log : Log) :
    ((resolveTwice ctx symbols (chain five keys)).run log).1 =
      .ok (chain five (keys.map finalName)) := by
  rw [resolveTwice, resolve_chain]
  simp only [pure_bind, resolve_chain, List.map_map]
  rfl

lemma prefix_of_mem_annotated_chain {keys below : List String} {typeName : String}
    (h : (below, typeName) ∈ annotated (chain five keys)) : below <+: keys := by
  induction keys generalizing below with
  | nil => cases h
  | cons key rest ih =>
    obtain ⟨k, v, hm, h⟩ := mem_annotatedFields.mp h
    cases List.mem_singleton.mp hm
    obtain ⟨rfl, -⟩ | ⟨deeper, rfl, hdeeper⟩ := h
    · exact ⟨rest, rfl⟩
    · exact List.cons_prefix_cons.mpr ⟨rfl, ih hdeeper⟩

lemma annotated_chain (above : List String) {key : String} {a : Ascription}
    (hkey : read? key = some a) :
    (above ++ [key], a.typeName) ∈ annotated (chain five (above ++ [key])) := by
  induction above with
  | nil =>
    exact mem_annotatedFields.mpr ⟨key, five, List.mem_singleton_self _, .inl ⟨rfl, a, hkey, rfl⟩⟩
  | cons k above ih =>
    exact mem_annotatedFields.mpr
      ⟨k, chain five (above ++ [key]), List.mem_singleton_self _, .inr ⟨above ++ [key], rfl, ih⟩⟩

lemma descend_chain_self (names : List String) : (chain five names).descend names = some five := by
  induction names with
  | nil => rfl
  | cons name rest ih => simp [chain, descend, Node.get?, Fields.get?_cons, ih]

lemma descend_chain {names path : List String} {value : Node}
    (h : (chain five names).descend path = some value) :
    path = names ∨ ∃ fields, value = .mapping fields := by
  induction names generalizing path with
  | nil =>
    cases path with
    | nil => exact .inl rfl
    | cons key rest => cases h
  | cons name names ih =>
    cases path with
    | nil => exact .inr ⟨_, (Option.some.inj h).symm⟩
    | cons key rest =>
      rw [chain, descend] at h
      obtain ⟨n, hn, h⟩ := Option.bind_eq_some_iff.mp h
      rw [Node.get?, Fields.get?_cons] at hn
      split at hn
      · rename_i hkey
        cases hn
        obtain rfl | hmapping := ih h
        · exact .inl (hkey ▸ rfl)
        · exact .inr hmapping
      · cases hn

abbrev anyObject : Node := .mapping []

lemma checkPath_anyObject {doc : Node} {path typeName : String} (name : String)
    (h : ∀ value, doc.getPath? path = some value → ∃ fields, value = .mapping fields) :
    Schema.checkPath doc [(name, anyObject)] path typeName = .ok () := by
  rw [Schema.checkPath]
  rw [Fields.get?_cons]
  split_ifs with hname
  · dsimp only
    cases hvalue : doc.getPath? path with
    | none => rfl
    | some value =>
      obtain ⟨fields, rfl⟩ := h value hvalue
      rfl
  · rfl

lemma checkPaths_chain {keys names : List String} (name : String)
    (h : ∀ below, below <+: keys → below ≠ [] → pathKeys (recordedPath below) ≠ names) :
    Schema.checkPaths (chain five names) [(name, anyObject)] (extract (chain five keys)) =
      .ok () := by
  refine Schema.checkPaths_of_forall fun path typeName hm => checkPath_anyObject name ?_
  intro value hvalue
  obtain ⟨below, hbelow, rfl⟩ := mem_annotated_of_mem_extract hm
  refine (descend_chain hvalue).resolve_left ?_
  exact h below (prefix_of_mem_annotated_chain hbelow) (ne_nil_of_mem_annotated hbelow)

/-- Names that are not findable let values escape: there is a document in which the annotated value
behind them is not of its type, and yet is accepted. -/
theorem escapes_of_not_findable {above : List String} {key : String} {a : Ascription}
    (hkey : read? key = some a) (h : ¬ Findable (above ++ [key])) (ctx : Resolution.Context)
    (symbols : Mapping) (log : Log) :
    ∃ doc config, (above ++ [key], a.typeName) ∈ annotated doc ∧
      ((resolveTwice ctx symbols doc).run log).1 = .ok config ∧
      config.descend ((above ++ [key]).map finalName) = some five ∧
      Schema.check (.ofNode anyObject) (recordedPath (above ++ [key])) five ≠ .ok () ∧
      Schema.validate config [(a.typeName, anyObject)] (extract doc) = .ok () := by
  have hne : above ++ [key] ≠ [] := by simp
  have hpath := mt (pathKeys_recordedPath_iff hne).mp h
  refine ⟨chain five (above ++ [key]), _, annotated_chain above hkey,
    resolveTwice_chain ctx symbols _ log, descend_chain_self _, ?_, ?_⟩
  · simp [Schema.Spec.ofNode, Schema.check]
  · -- A recorded path of the chain can only lead to the value at its end or to a mapping.
    obtain ⟨recorded, hrecord⟩ := exists_get?_extract (annotated_chain above hkey)
    have hannotations := List.ne_nil_of_mem (Fields.mem_of_get? hrecord)
    rw [Schema.validate_eq_checkPaths _ (List.cons_ne_nil _ _) hannotations]
    refine checkPaths_chain a.typeName fun below hstart hbelow heq => ?_
    obtain rfl := eq_of_prefix_of_pathKeys_eq hstart hbelow heq
    exact hpath heq

end

end Load

end LayeredConfig
