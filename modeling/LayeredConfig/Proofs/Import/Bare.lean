import LayeredConfig.Proofs.Import.Reading
import LayeredConfig.Proofs.Node.Merging
import LayeredConfig.Proofs.Outline.BareLine
import LayeredConfig.Proofs.Simulation

namespace LayeredConfig

open Outline Text

lemma Node.importPaths_bare (n : Node) : Import.importPaths n.bare = Import.importPaths n := by
  have hpath : Import.pathText? ∘ bare = Import.pathText? := by
    funext m
    cases m <;> rfl
  cases n with
  | mapping fields =>
    have hvalues : Fields.values (Fields.mapFields Ascription.strip bare fields) =
        (Fields.values fields).map bare := by
      simp [Fields.values, Fields.mapFields]
    rw [bare, bareFields_eq, Import.importPaths, hvalues, List.filterMap_map, hpath]
    rfl
  | _ => rfl

namespace Import

def chainsOf (files : FileSystem) (documents : Path → Prop) : Chains := fun keys =>
  ∃ path source, documents path ∧ files.read path = .ok source ∧
    keys ∈ keyChains (marks source.toList)

/-- Documents with all that they import, without a schema, in which no name has two spellings at
one place, and with keys that can be written without their annotations. -/
structure Droppable (files : FileSystem) (documents : Path → Prop) : Prop where
  imported : ∀ path source, documents path → files.read path = .ok source →
    ∀ written ∈ (Directives.split (parse source.toList)).imports,
      documents (files.realPath (importTarget files path.parent written))
  tidy : ∀ path source, documents path → files.read path = .ok source →
    TidyMarks (marks source.toList)
  undeclared : ¬ chainsOf files documents [schemaKey]
  alike : (chainsOf files documents).Alike

/-- Files that differ in the documents alone, whose lines are written without annotations. -/
structure Bared (documents : Path → Prop) (files bared : FileSystem) : Prop where
  isFile : bared.isFile = files.isFile
  canonical : bared.canonical? = files.canonical?
  listed : bared.files = files.files
  texts : ∀ path, documents path →
    Agree (fun source source' => lines source'.toList = (lines source.toList).map bareLine)
      (files.read path) (bared.read path)

structure IsDirective (key : String) : Prop where
  at_first : key.toList.head? = some '@'
  plain : Ascription.strip key = key

lemma isDirective_importKey : IsDirective importKey := ⟨rfl, by cbv⟩

lemma isDirective_schemaKey : IsDirective schemaKey := ⟨rfl, by cbv⟩

lemma isDirective_evalKey : IsDirective evalKey := ⟨rfl, by cbv⟩

section

variable {chains : Chains} (htidy : ∀ key, chains [key] → Tidy key) {fields : Mapping}
  (hfields : Node.FieldsKeysIn chains fields)
include htidy hfields

lemma directive_spelled {key : String} (hkey : IsDirective key) :
    ∀ other ∈ Fields.keys fields,
      Ascription.strip other = Ascription.strip key → other = key := by
  intro other hother heq
  obtain ⟨field, hfield, rfl⟩ := List.mem_map.mp hother
  have hother := htidy _ (Node.fieldsKeysIn_iff.mp hfields field hfield).1
  rw [hkey.plain] at heq
  by_cases hannotated : Ascription.read? field.1 = none
  · rw [Ascription.strip_of_unannotated hannotated] at heq
    exact heq
  · have hfirst := hother.unmarked hannotated
    rw [heq] at hfirst
    exact absurd (hfirst '@' hkey.at_first) (by simp)

lemma get?_directive {key : String} (hkey : IsDirective key) :
    Fields.get? (Node.bareFields fields) key = (Fields.get? fields key).map Node.bare := by
  have hget := Fields.get?_mapFields (f := Node.bare) (directive_spelled htidy hfields hkey)
  rw [hkey.plain] at hget
  rw [Node.bareFields_eq, hget]

lemma erase_directive {key : String} (hkey : IsDirective key) :
    Node.FieldsKeysIn chains (Fields.erase fields key) ∧
      Fields.erase (Node.bareFields fields) key = Node.bareFields (Fields.erase fields key) := by
  have herase := Fields.erase_mapFields (f := Node.bare) (directive_spelled htidy hfields hkey)
  rw [hkey.plain] at herase
  rw [Node.bareFields_eq, Node.bareFields_eq, herase]
  refine ⟨?_, rfl⟩
  rw [Node.fieldsKeysIn_iff] at hfields ⊢
  exact fun field hm => hfields field (List.mem_of_mem_filter hm)

end

lemma Droppable.tidyKeys {files : FileSystem} {documents : Path → Prop}
    (h : Droppable files documents) {keys : List String} (hkeys : chainsOf files documents keys) :
    ∀ key ∈ keys, Tidy key := by
  obtain ⟨path, source, hpath, hread, hmem⟩ := hkeys
  exact tidy_of_mem_keyChains (h.tidy path source hpath hread) keys hmem

structure DirectivesBare (chains : Chains) (d d' : Directives) : Prop where
  imports : d'.imports = d.imports
  schema : d.schema = none ∧ d'.schema = none
  content : d'.content = d.content.bare
  keys : d.content.KeysIn chains
  container : d.content.isContainer

section

variable {chains : Chains} (htidy : ∀ key, chains [key] → Tidy key)
  (hschema : ¬ chains [schemaKey])
include htidy hschema

lemma split_bare {n : Node} (hkeys : n.KeysIn chains) (hcontainer : n.isContainer) :
    DirectivesBare chains (.split n) (.split n.bare) := by
  cases n with
  | mapping fields =>
    have hfields : Node.FieldsKeysIn chains fields := hkeys
    have hnone : Fields.get? fields schemaKey = none := by
      by_contra hsome
      obtain ⟨value, hvalue⟩ := Option.ne_none_iff_exists'.mp hsome
      exact hschema (Node.fieldsKeysIn_iff.mp hfields _ (Fields.mem_of_get? hvalue)).1
    obtain ⟨hkeys₁, herase₁⟩ := erase_directive htidy hfields isDirective_importKey
    obtain ⟨hkeys₂, herase₂⟩ := erase_directive htidy hkeys₁ isDirective_schemaKey
    obtain ⟨hkeys₃, herase₃⟩ := erase_directive htidy hkeys₂ isDirective_evalKey
    refine ⟨?_, ⟨hnone, ?_⟩, ?_, hkeys₃, rfl⟩
    · change ((Fields.get? (Node.bareFields fields) importKey).map importPaths).getD [] =
        ((Fields.get? fields importKey).map importPaths).getD []
      rw [get?_directive htidy hfields isDirective_importKey, Option.map_map]
      congr 2
      funext n
      exact n.importPaths_bare
    · change Fields.get? (Node.bareFields fields) schemaKey = none
      rw [get?_directive htidy hfields isDirective_schemaKey, hnone]
      rfl
    · change Node.mapping (Fields.erase (Fields.erase (Fields.erase (Node.bareFields fields)
        importKey) schemaKey) evalKey) = _
      rw [herase₁, herase₂, herase₃]
      rfl
  | sequence items => exact ⟨rfl, ⟨rfl, rfl⟩, rfl, trivial, rfl⟩
  | _ => cases hcontainer

end

structure DocumentBare (chains : Chains) (d d' : Document) : Prop where
  keys : d.tree.KeysIn chains
  tree : d'.tree = d.tree.bare
  schema : d.metadata.schema = none ∧ d'.metadata.schema = none
  baseDir : d'.metadata.baseDir = d.metadata.baseDir

lemma add_bare {chains : Chains} (halike : chains.Alike) {d d' imported imported' : Document}
    (h : DocumentBare chains d d') (himported : DocumentBare chains imported imported') :
    DocumentBare chains (d.add imported) (d'.add imported') := by
  obtain ⟨hkeys, htree⟩ := Node.merge_bare halike h.keys imported.tree himported.keys
  refine ⟨hkeys, ?_, ⟨?_, ?_⟩, h.baseDir⟩
  · simp only [Document.add, h.tree, himported.tree, htree]
  · simp only [Document.add, h.schema.1, himported.schema.1, Option.or_none]
  · simp only [Document.add, h.schema.2, himported.schema.2, Option.or_none]

lemma tracks_readFile (files bared : FileSystem) (path : Path) :
    Tracks (fun answer answer' => answer = files.read path ∧ answer' = bared.read path)
      (readFile files path) (readFile bared path) :=
  fun _ => ⟨.ok ⟨rfl, rfl⟩, rfl⟩

section

variable {files bared : FileSystem} {documents : Path → Prop} (h : Droppable files documents)
  (hbared : Bared documents files bared)

include hbared in
omit h in
lemma realPath_bared : bared.realPath = files.realPath := by
  funext path
  rw [FileSystem.realPath, FileSystem.realPath, hbared.canonical]

include hbared in
omit h in
lemma importTarget_bared : importTarget bared = importTarget files := by
  funext dir written
  rw [importTarget, importTarget, realPath_bared hbared]

include h hbared

lemma readDirectives_bare {path : Path} (hpath : documents path) :
    Agree (fun d d' => DirectivesBare (chainsOf files documents) d d' ∧
        ∀ written ∈ d.imports, documents (files.realPath (importTarget files path.parent written)))
      (readDirectives files path) (readDirectives bared path) := by
  have htexts := hbared.texts path hpath
  rw [readDirectives_eq, readDirectives_eq]
  unfold readSource sourceOf
  cases hread : files.read path with
  | error e =>
    rw [hread] at htexts
    rw [htexts.error_left]
    dsimp only
    split <;> exact .error _
  | ok source =>
    rw [hread] at htexts
    obtain ⟨source', hread', hlines⟩ := htexts.ok_left
    have htidy := h.tidy path source hpath hread
    rw [hread']
    simp only [wrongHeader?_bare hlines htidy]
    cases wrongHeader? source.toList with
    | some header => exact .error _
    | none =>
      have hchains : ∀ keys ∈ keyChains (marks source.toList), chainsOf files documents keys :=
        fun keys hm => ⟨path, source, hpath, hread, hm⟩
      obtain ⟨hkeys, hparse⟩ := parse_bare h.alike hlines htidy hchains
      have htidyKeys : ∀ key, chainsOf files documents [key] → Tidy key :=
        fun key hkey => h.tidyKeys hkey key List.mem_cons_self
      have hcontainer : (parse source.toList).isContainer := by
        rw [parse_eq]
        exact isContainer_finish _
      have hsplit := split_bare htidyKeys h.undeclared hkeys hcontainer
      rw [← hparse] at hsplit
      exact .ok ⟨hsplit, h.imported path source hpath hread⟩

lemma tracks_directivesOf {path : Path} (hpath : documents path) :
    Tracks (fun d d' => DirectivesBare (chainsOf files documents) d d' ∧
        ∀ written ∈ d.imports, documents (files.realPath (importTarget files path.parent written)))
      (liftM (directivesOf path (files.read path)) : Run Directives)
      (liftM (directivesOf path (bared.read path)) : Run Directives) := by
  have hagree := readDirectives_bare h hbared hpath
  rw [readDirectives, readDirectives] at hagree
  intro progress
  generalize directivesOf path (files.read path) = d at hagree ⊢
  generalize directivesOf path (bared.read path) = d' at hagree ⊢
  cases hagree with
  | ok hd => exact ⟨.ok hd, rfl⟩
  | error e => exact ⟨.error e, rfl⟩

lemma tracks_loadWith (fuel : Nat) {path : Path} (hpath : documents (files.realPath path)) :
    Tracks (fun d d' => DocumentBare (chainsOf files documents) d d' ∧ d.tree.isContainer)
      (loadWith files fuel path) (loadWith bared fuel path) := by
  have hnothing : DocumentBare (chainsOf files documents) .nothing .nothing ∧
      Document.nothing.tree.isContainer := ⟨⟨trivial, rfl, ⟨rfl, rfl⟩, rfl⟩, rfl⟩
  -- Both runs visit the same paths in the same order, so they run out of fuel together.
  induction fuel generalizing path with
  | zero => exact .pure hnothing
  | succ fuel ih =>
    rw [loadWith, loadWith, realPath_bared hbared, importTarget_bared hbared]
    refine .bind (.refl (isVisited _)) fun visited _ heq => ?_
    obtain rfl : visited = _ := heq
    split
    · exact .bind (.refl _) fun _ _ _ => .pure hnothing
    · refine .bind (.refl (markVisited _)) fun _ _ _ => ?_
      refine .bind (tracks_readFile files bared _) fun answer answer' hanswer => ?_
      obtain ⟨rfl, rfl⟩ := hanswer
      refine .bind (tracks_directivesOf h hbared hpath) fun d d' hd => ?_
      obtain ⟨hd, himports⟩ := hd
      have hschema : noteSchema d' = noteSchema d := by
        rw [noteSchema, noteSchema, hd.schema.1, hd.schema.2]
      have hmapping : d.schemaMapping = none ∧ d'.schemaMapping = none := by
        rw [Directives.schemaMapping, Directives.schemaMapping, hd.schema.1, hd.schema.2]
        exact ⟨rfl, rfl⟩
      rw [hschema, hd.imports]
      refine .bind (.refl _) fun _ _ _ => ?_
      refine .bind (.refl _) fun _ _ _ => ?_
      refine .bind (R := DocumentBare (chainsOf files documents)) (.foldlM ?_ ?_) ?_
      · intro written hwritten acc acc' hacc
        exact .bind (ih (himports written hwritten)) fun loaded loaded' hloaded =>
          .pure (add_bare h.alike hacc hloaded.1)
      · exact ⟨trivial, rfl, hmapping, rfl⟩
      · intro below below' hbelow
        obtain ⟨hkeys, htree⟩ := Node.merge_bare h.alike hbelow.keys d.content hd.keys
        refine .pure ⟨⟨hkeys, ?_, hbelow.schema, hbelow.baseDir⟩, ?_⟩
        · simp only [hbelow.tree, hd.content, htree]
        · exact Node.isContainer_merge _ hd.container

lemma tracks_loadDocument {entry : Path}
    (hentry : documents (files.realPath (files.realPath entry))) :
    Tracks (fun d d' => DocumentBare (chainsOf files documents) d d' ∧ d.tree.isContainer)
      (loadDocument files entry) (loadDocument bared entry) := by
  rw [loadDocument, loadDocument, realPath_bared hbared, hbared.isFile, hbared.listed]
  split
  · refine .bind (tracks_loadWith h hbared _ hentry) fun d d' hd => ?_
    exact .pure ⟨⟨hd.1.keys, hd.1.tree, hd.1.schema, rfl⟩, hd.2⟩
  · exact fun progress => ⟨.error _, rfl⟩

end

lemma baseDir_of_loadDocument {files : FileSystem} {entry : Path} {progress progress' : Progress}
    {d : Document} (h : (loadDocument files entry).run progress = (.ok d, progress')) :
    d.metadata.baseDir = (files.realPath entry).parent := by
  simp only [loadDocument] at h
  split at h
  · obtain ⟨loaded, between, -, h⟩ := run_bind_eq_ok.mp h
    cases h
    rfl
  · cases h

end Import

end LayeredConfig
