import LayeredConfig.Proofs.Import.Entries

namespace LayeredConfig.Import

open Node

/-- No directive is left at the root, and what can be reached below it is as documents write it: a
conditional is an item of a sequence and stands for a scalar or a tag, the other items are scalars
and tags themselves, and no key comes twice. -/
structure WellBuilt (tree : Node) : Prop where
  root : tree.kind = .object ∨ tree.kind = .list
  undirected : ∀ fields, tree = .mapping fields →
    importKey ∉ Fields.keys fields ∧ schemaKey ∉ Fields.keys fields ∧ evalKey ∉ Fields.keys fields
  keys : ∀ fields, Within tree (.mapping fields) → (Fields.keys fields).Nodup
  values : ∀ fields, Within tree (.mapping fields) → ∀ field ∈ fields, field.2.kind ≠ .conditional
  items : ∀ items, Within tree (.sequence items) →
    ∀ item ∈ items, item.kind ∉ [.object, .list, .expression]
  conditionals : ∀ condition value, Within tree (.conditional condition value) →
    (∃ items, Within tree (.sequence items) ∧ .conditional condition value ∈ items) ∧
      value.isAtom = true

section

variable {tree : Node} (h : tree.Outlined) {condition : String} {value : Node}
include h

lemma item_of_conditional (hroot : tree.isContainer)
    (hwithin : Within tree (.conditional condition value)) :
    ∃ items, Within tree (.sequence items) ∧ .conditional condition value ∈ items := by
  cases hwithin with
  | here => cases hroot
  | field hfields hm => exact absurd rfl ((h.within hfields).here.2 _ hm)
  | item hitems hm => exact ⟨_, hitems, hm⟩
  | branch houter => cases (h.within houter).here

lemma kind_of_item {items : List Node} (hwithin : Within tree (.sequence items)) {item : Node}
    (hm : item ∈ items) : item.kind ∉ [.object, .list, .expression] := by
  have hitem := (h.within hwithin).here item hm
  cases item with
  | mapping | sequence | expression => cases hitem
  | _ => simp [kind]

end

lemma Shaped.wellBuilt {tree : Node} (h : Shaped tree) : WellBuilt tree := by
  have houtlined := h.value.outlined
  refine ⟨?_, fun fields hfields => ?_, fun fields hwithin => ?_, fun fields hwithin => ?_,
    fun items hwithin item hm => kind_of_item houtlined hwithin hm, fun condition value hwithin => ?_⟩
  · have hcontainer := h.container
    cases tree with
    | mapping => exact .inl rfl
    | sequence => exact .inr rfl
    | _ => cases hcontainer
  · subst hfields
    simpa [Node.get?, Fields.get?_eq_none_iff] using h.undirected
  · exact (houtlined.within hwithin).here.1
  · exact (houtlined.within hwithin).here.2
  · exact ⟨item_of_conditional houtlined h.container hwithin, (houtlined.within hwithin).here⟩

theorem loadDocument_wellBuilt {files : FileSystem} (hfinite : files.Finite) {entry : Path}
    {log : Log} {loaded : Document} {progress : Progress}
    (hload : (loadDocument files entry).run ⟨[], [], log⟩ = (.ok loaded, progress)) :
    WellBuilt loaded.tree := by
  obtain ⟨visit, htraces, -⟩ := exists_visit hfinite entry log
  obtain ⟨d, hd, rfl⟩ := result_of_loadDocument hfinite htraces hload
  exact (shaped_result visit htraces hd).wellBuilt

def mixedSections : Listing := [
  (⟨"/m"⟩, .ok
    "@import: a\napp:\n  name: x\n  - if $debug: !file(b)\n  - plain\nextras:\n- 1\nk = 1 + 1\nk: 2\n"),
  (⟨"/a"⟩, .ok "@eval: 1\napp:\n  - if $ENV.A: 3\nlast:\n")]

theorem loadDocument_wellBuilt_mixed :
    ∃ loaded progress, (loadDocument mixedSections.fileSystem ⟨"/m"⟩).run ⟨[], [], []⟩ =
        (.ok loaded, progress) ∧
      loaded.tree = .mapping [
        ("app", .sequence [.conditional "$ENV.A" (.int 3),
          .conditional "$debug" (.tag "file" ["b"]), .string "plain"]),
        ("last", .mapping []), ("extras", .sequence [.int 1]), ("k", .int 2)] ∧
      WellBuilt loaded.tree := by
  have hload : ∃ loaded progress, (loadDocument mixedSections.fileSystem ⟨"/m"⟩).run ⟨[], [], []⟩ =
      (.ok loaded, progress) ∧ loaded.tree = .mapping [
        ("app", .sequence [.conditional "$ENV.A" (.int 3),
          .conditional "$debug" (.tag "file" ["b"]), .string "plain"]),
        ("last", .mapping []), ("extras", .sequence [.int 1]), ("k", .int 2)] :=
    ⟨_, _, by cbv, rfl⟩
  obtain ⟨loaded, progress, hrun, htree⟩ := hload
  exact ⟨loaded, progress, hrun, htree,
    loadDocument_wellBuilt mixedSections.canonical_fileSystem.finite hrun⟩

end LayeredConfig.Import
