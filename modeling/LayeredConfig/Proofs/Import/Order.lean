import LayeredConfig.Proofs.Import.Entries
import LayeredConfig.Proofs.Node.Layers

/-! Documents of one shape are laid over one another in the order in which a depth first walk along
the imports leaves them. -/

namespace LayeredConfig.Import

def Visit.contents (visit : Visit) : List Node := visit.entries.map (·.directives.content)

def contentsOf (below : List Visit) : List Node := (entriesOf below).map (·.directives.content)

lemma contents_entered (path : Path) (d : Directives) (below : List Visit) :
    (Visit.entered path d below).contents = contentsOf below ++ [d.content] :=
  List.map_append

lemma contentsOf_cons (visit : Visit) (rest : List Visit) :
    contentsOf (visit :: rest) = visit.contents ++ contentsOf rest :=
  List.map_append

mutual

lemma perm_reads : (visit : Visit) → ∀ {loaded}, visit.result = .ok loaded →
    (visit.entries.map Entry.path).Perm visit.reads
  | .skipped _, _, _ => .refl []
  | .entered path d below, _, h => by
    rw [Visit.result, map_eq_ok] at h
    obtain ⟨acc, hacc, -⟩ := h
    rw [Visit.entries, List.map_append]
    exact List.perm_append_comm.trans ((perm_readsOf below hacc).cons path)

lemma perm_readsOf : (below : List Visit) → ∀ {acc loaded}, results acc below = .ok loaded →
    ((entriesOf below).map Entry.path).Perm (readsOf below)
  | [], _, _, _ => .refl []
  | visit :: rest, _, _, h => by
    obtain ⟨imported, hvisit, hrest⟩ := results_cons_eq_ok.mp h
    rw [entriesOf, List.map_append]
    exact (perm_reads visit hvisit).append (perm_readsOf rest hrest)

end

structure IsLayer (forms : List String → Node.Form) (n : Node) : Prop where
  fits : n.Fits forms
  kind : n.kind = .object

section

variable {forms : List String → Node.Form}

lemma IsLayer.merge {a b : Node} (ha : IsLayer forms a) (hb : IsLayer forms b) :
    IsLayer forms (a.merge b) := by
  refine ⟨ha.fits.merge hb.fits, ?_⟩
  have hkind := hb.kind
  cases b with
  | mapping fields => cases a <;> rfl
  | _ => cases hkind

lemma IsLayer.merge_empty {n : Node} (h : IsLayer forms n) : n.merge (.mapping []) = n := by
  have hkind := h.kind
  cases n with
  | mapping fields => rfl
  | _ => cases hkind

lemma IsLayer.foldl {layers : List Node} (hlayers : ∀ c ∈ layers, IsLayer forms c) {a : Node}
    (ha : IsLayer forms a) : IsLayer forms (layers.foldl Node.merge a) := by
  induction layers generalizing a with
  | nil => exact ha
  | cons layer rest ih =>
    obtain ⟨hlayer, hrest⟩ := List.forall_mem_cons.mp hlayers
    exact ih hrest (ha.merge hlayer)

lemma root_of_isLayer {n : Node} (h : IsLayer forms n) : forms [] = .mapping := by
  have hkind := h.kind
  cases n with
  | mapping fields => exact (h.fits.here.form rfl).symm
  | _ => cases hkind

variable (hroot : forms [] = .mapping)
include hroot

lemma isLayer_empty : IsLayer forms (.mapping []) := by
  refine ⟨fun path value h => ?_, rfl⟩
  cases path with
  | nil =>
    cases h
    refine ⟨fun _ => hroot.symm, fun fields hfields => ?_⟩
    cases hfields
    exact List.nodup_nil
  | cons key path => cases h

mutual

lemma result_tree : (visit : Visit) → (∀ c ∈ visit.contents, IsLayer forms c) →
    ∀ {loaded}, visit.result = .ok loaded →
    loaded.tree = visit.contents.foldl Node.merge (.mapping [])
  | .skipped _, _, _, h => by
    cases h
    rfl
  | .entered path d below, hcontents, _, h => by
    rw [contents_entered] at hcontents ⊢
    obtain ⟨hbelow, hown⟩ := List.forall_mem_append.mp hcontents
    have hcontent := hown d.content List.mem_cons_self
    rw [Visit.result, map_eq_ok] at h
    obtain ⟨acc, hacc, rfl⟩ := h
    have htree :=
      results_tree below hbelow Node.null_sameBelow_empty (isLayer_empty hroot) hacc
    rw [List.foldl_append]
    exact htree.merge_eq hcontent.kind hcontent.fits.here.nodup

lemma results_tree : (below : List Visit) → (∀ c ∈ contentsOf below, IsLayer forms c) →
    ∀ {acc loaded base}, acc.tree.SameBelow base → IsLayer forms base →
    results acc below = .ok loaded →
    loaded.tree.SameBelow ((contentsOf below).foldl Node.merge base)
  | [], _, _, _, _, hacc, _, h => by
    cases h
    exact hacc
  | visit :: rest, hcontents, acc, loaded, base, hacc, hbase, h => by
    rw [contentsOf_cons] at hcontents ⊢
    obtain ⟨hvisit, hrest⟩ := List.forall_mem_append.mp hcontents
    obtain ⟨imported, himported, h⟩ := results_cons_eq_ok.mp h
    have hempty := isLayer_empty hroot
    have htree := result_tree visit hvisit himported
    have hlayer := IsLayer.foldl hvisit hempty
    -- The nested imports are put together first, which is the same by associativity.
    have hadd : (acc.add imported).tree = visit.contents.foldl Node.merge base := by
      calc acc.tree.merge imported.tree
          = acc.tree.merge (visit.contents.foldl Node.merge (.mapping [])) := by rw [htree]
        _ = base.merge (visit.contents.foldl Node.merge (.mapping [])) :=
          hacc.merge_eq hlayer.kind hlayer.fits.here.nodup
        _ = visit.contents.foldl Node.merge (base.merge (.mapping [])) :=
          Node.merge_foldl (fun c hc => (hvisit c hc).fits) hbase.fits hempty.fits
        _ = visit.contents.foldl Node.merge base := by rw [hbase.merge_empty]
    have hsame : (acc.add imported).tree.SameBelow (visit.contents.foldl Node.merge base) := by
      rw [hadd]
      exact .refl _
    rw [List.foldl_append]
    exact results_tree rest hrest hsame (IsLayer.foldl hvisit hbase) h

end

end

lemma contents_ne_nil {files : FileSystem} {path : Path} {visit : Visit}
    (htraces : visit.Traces files [] path) {loaded : Document} (h : visit.result = .ok loaded) :
    visit.contents ≠ [] := by
  cases visit with
  | skipped here => cases htraces.2
  | refused here failure => cases h
  | entered here d below =>
    rw [contents_entered]
    exact List.append_ne_nil_of_right_ne_nil _ (List.cons_ne_nil _ _)

/-- The documents are those that were read, each of them once, and lie over one another in the order
in which a depth first walk leaves them. -/
structure Ordered (visit : Visit) (loaded : Document) (reads : List Path) : Prop where
  once : reads.Pairwise fun p q => p.same q = false
  each : (visit.entries.map Entry.path).Perm reads
  fold : loaded.tree = visit.contents.foldl Node.merge .null
  layered : Node.Layered visit.contents loaded.tree

theorem loadDocument_ordered {files : FileSystem} (hfinite : files.Finite) {entry : Path}
    {visit : Visit} (htraces : visit.Traces files [] (files.realPath entry)) {log : Log}
    {loaded : Document} {progress : Progress}
    (hload : (loadDocument files entry).run ⟨[], [], log⟩ = (.ok loaded, progress))
    (hroots : ∀ c ∈ visit.contents, c.kind = .object)
    (hconsistent : Node.Consistent visit.contents) :
    Ordered visit loaded progress.reads := by
  rw [run_loadDocument hfinite htraces] at hload
  split at hload
  · obtain ⟨hresult, rfl⟩ := Prod.mk.inj hload
    obtain ⟨d, hd, rfl⟩ := map_eq_ok.mp hresult
    have hdistinct : ∀ c ∈ visit.contents, c.Distinct := by
      intro c hc
      obtain ⟨e, he, rfl⟩ := List.mem_map.mp hc
      exact (sound_of_readDirectives (readDirectives_of_mem visit htraces e he)).shaped.distinct
    have hfits := Node.fits_of_consistent hconsistent hdistinct
    have hlayers : ∀ c ∈ visit.contents, IsLayer (Node.formAt visit.contents) c :=
      fun c hc => ⟨hfits c hc, hroots c hc⟩
    obtain ⟨first, rest, hcontents⟩ := List.exists_cons_of_ne_nil (contents_ne_nil htraces hd)
    have hfirst := hlayers first (hcontents ▸ List.mem_cons_self)
    have htree : d.tree = visit.contents.foldl Node.merge .null := by
      have hempty : (Node.mapping []).merge first = Node.null.merge first :=
        (Node.null_sameBelow_empty.merge_eq hfirst.kind hfirst.fits.here.nodup).symm
      rw [result_tree (root_of_isLayer hfirst) visit hlayers hd, hcontents, List.foldl_cons,
        List.foldl_cons, hempty]
    refine ⟨(fresh_reads visit htraces).distinct, perm_reads visit hd, htree, ?_⟩
    change Node.Layered visit.contents d.tree
    rw [htree]
    exact Node.layered_foldl hfits (contents_ne_nil htraces hd)
  · cases (Prod.mk.inj hload).1

def twoLayers : Listing :=
  [(⟨"/m"⟩, .ok "@import: a\nk: 2\n"), (⟨"/a"⟩, .ok "k: 1\n")]

def layerOf (n : Int64) : Node := .mapping [("k", .int n)]

def twoLayersVisit : Visit :=
  .entered ⟨"/m"⟩ ⟨["a"], none, none, layerOf 2⟩
    [.entered ⟨"/a"⟩ ⟨[], none, none, layerOf 1⟩ []]

lemma contents_twoLayers : twoLayersVisit.contents = [layerOf 1, layerOf 2] := rfl

lemma traces_twoLayers :
    twoLayersVisit.Traces twoLayers.fileSystem [] (twoLayers.fileSystem.realPath ⟨"/m"⟩) := by
  have hupper : readDirectives twoLayers.fileSystem ⟨"/m"⟩ = .ok ⟨["a"], none, none, layerOf 2⟩ := by
    cbv
  have hlower : readDirectives twoLayers.fileSystem ⟨"/a"⟩ = .ok ⟨[], none, none, layerOf 1⟩ := by
    cbv
  simp only [twoLayersVisit, Visit.Traces, TracesAll, Visit.result, results, Except.map]
  exact ⟨by cbv, by cbv, hupper, ⟨by cbv, by cbv, hlower, trivial⟩, trivial⟩

lemma consistent_twoLayers : Node.Consistent twoLayersVisit.contents := by
  have hplain : ∀ n key path v, (layerOf n).descend (key :: path) = some v → v.form = .plain := by
    intro n key path v hv
    rw [layerOf, Node.descend, Option.bind_eq_some_iff] at hv
    obtain ⟨inner, hinner, hv⟩ := hv
    rw [Node.get?, Fields.get?_cons] at hinner
    split_ifs at hinner
    · cases hinner
      cases path <;> cases hv
      rfl
    · cases hinner
  intro path v hv w hw _ _
  obtain ⟨c, hc, hv⟩ := List.mem_filterMap.mp hv
  obtain ⟨c', hc', hw⟩ := List.mem_filterMap.mp hw
  have hcontents : ∀ c ∈ twoLayersVisit.contents, ∃ n, c = layerOf n := by
    intro c hc
    rw [contents_twoLayers, List.mem_pair] at hc
    obtain rfl | rfl := hc <;> exact ⟨_, rfl⟩
  obtain ⟨n, rfl⟩ := hcontents c hc
  obtain ⟨n', rfl⟩ := hcontents c' hc'
  cases path with
  | nil =>
    cases hv
    cases hw
    rfl
  | cons key path => rw [hplain n key path v hv, hplain n' key path w hw]

theorem loadDocument_ordered_two :
    Node.Consistent twoLayersVisit.contents ∧
    ∃ loaded progress, (loadDocument twoLayers.fileSystem ⟨"/m"⟩).run ⟨[], [], []⟩ =
      (.ok loaded, progress) ∧ loaded.tree = layerOf 2 ∧
      Ordered twoLayersVisit loaded progress.reads := by
  have hload : (loadDocument twoLayers.fileSystem ⟨"/m"⟩).run ⟨[], [], []⟩ =
      (.ok ⟨layerOf 2, ⟨["a"], none, none, ⟨"/"⟩⟩⟩, ⟨[⟨"/m"⟩, ⟨"/a"⟩], [⟨"/m"⟩, ⟨"/a"⟩],
        [.loadedDocument ⟨"/m"⟩ 1, .loadedDocument ⟨"/a"⟩ 0]⟩) := by cbv
  have hroots : ∀ c ∈ twoLayersVisit.contents, c.kind = .object := by
    intro c hc
    rw [contents_twoLayers, List.mem_pair] at hc
    obtain rfl | rfl := hc <;> rfl
  exact ⟨consistent_twoLayers, _, _, hload, rfl, loadDocument_ordered
    twoLayers.canonical_fileSystem.finite traces_twoLayers hload hroots consistent_twoLayers⟩

end LayeredConfig.Import
