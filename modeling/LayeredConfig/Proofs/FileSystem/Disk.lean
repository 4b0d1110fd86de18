import LayeredConfig.FileSystem.Disk
import LayeredConfig.Proofs.FileSystem.Canonical
import LayeredConfig.Proofs.Fields
import Mathlib

/-! Where a path leads, the chain of names from the root leads as well. -/

namespace LayeredConfig.Disk

open LayeredConfig.Path

def Named (names : List String) : Prop := ∀ name ∈ names, IsName name.toList

lemma at?_nil (e : Entry) : e.at? [] = some e := by
  cases e <;> rfl

lemma at?_append (e : Entry) (names more : List String) :
    e.at? (names ++ more) = (e.at? names).bind (·.at? more) := by
  induction names generalizing e with
  | nil => rw [at?_nil, List.nil_append, Option.bind_some]
  | cons name rest ih =>
    cases e with
    | folder entries =>
      rw [List.cons_append, Entry.at?, Entry.at?]
      cases Fields.get? entries name with
      | none => rfl
      | some inner => exact ih inner
    | file | link => rfl

lemma exists_folder {e found : Entry} {name : String} {rest : List String}
    (h : e.at? (name :: rest) = some found) :
    ∃ entries inner, e = .folder entries ∧ Fields.get? entries name = some inner ∧
      inner.at? rest = some found := by
  cases e with
  | folder entries =>
    rw [Entry.at?] at h
    obtain ⟨inner, hinner, hfound⟩ := Option.bind_eq_some_iff.mp h
    exact ⟨entries, inner, rfl, hinner, hfound⟩
  | file | link => cases h

lemma at?_dropLast {root : Entry} {here : List String} {entries : List (String × Entry)}
    (h : root.at? here = some (.folder entries)) :
    ∃ outer, root.at? here.dropLast = some (.folder outer) := by
  rcases List.eq_nil_or_concat here with rfl | ⟨init, last, rfl⟩
  · exact ⟨entries, h⟩
  · rw [List.concat_eq_append, at?_append] at h
    obtain ⟨e, he, hlast⟩ := Option.bind_eq_some_iff.mp h
    obtain ⟨outer, -, rfl, -⟩ := exists_folder hlast
    exact ⟨outer, by rwa [List.concat_eq_append, List.dropLast_concat]⟩

lemma root_folder {root : Entry} {here : List String} {entries : List (String × Entry)}
    (h : root.at? here = some (.folder entries)) : ∃ outer, root.at? [] = some (.folder outer) := by
  cases here with
  | nil => exact ⟨entries, h⟩
  | cons name rest =>
    obtain ⟨outer, -, rfl, -⟩ := exists_folder h
    exact ⟨outer, at?_nil _⟩

section

variable {root e : Entry} {links : Nat} {here names : List String} {pieces : List (List Char)}

structure Underway (root : Entry) (here : List String) (pieces : List (List Char)) : Prop where
  named : Named here
  solid : ∀ piece ∈ pieces, '/' ∉ piece
  unlinked : pieces = [] → ∀ target, root.at? here ≠ some (.link target)

lemma Underway.of_folder {entries : List (String × Entry)}
    (hat : root.at? here = some (.folder entries)) (hnamed : Named here)
    (hsolid : ∀ piece ∈ pieces, '/' ∉ piece) : Underway root here pieces := by
  refine ⟨hnamed, hsolid, fun _ target htarget => ?_⟩
  rw [hat] at htarget
  cases htarget

structure Leads (root : Entry) (names : List String) (e : Entry) : Prop where
  named : Named names
  reached : root.at? names = some e
  unlinked : ∀ target, e ≠ .link target

lemma leads_of_resolve (h : resolve root links here pieces = .ok (names, e))
    (hunderway : Underway root here pieces) : Leads root names e := by
  fun_induction resolve root links here pieces with
  | case1 links here e' hat =>
    obtain ⟨rfl, rfl⟩ := Prod.mk.inj (Except.ok.inj h)
    exact ⟨hunderway.named, hat, fun target htarget => hunderway.unlinked rfl target (htarget ▸ hat)⟩
  | case3 links here piece rest entries hat _ ih =>
    exact ih h (.of_folder hat hunderway.named (List.forall_mem_cons.mp hunderway.solid).2)
  | case4 links here rest entries hat _ ih =>
    obtain ⟨outer, houter⟩ := at?_dropLast hat
    exact ih h (.of_folder houter (fun name hname => hunderway.named name (List.mem_of_mem_dropLast hname))
      (List.forall_mem_cons.mp hunderway.solid).2)
  | case8 here piece rest entries hat _ _ _ _ target _ links start ih =>
    have hsolid : ∀ other ∈ slashPieces target.toList ++ rest, '/' ∉ other :=
      List.forall_mem_append.mpr
        ⟨fun _ hm => Text.not_mem_of_mem_pieces hm, (List.forall_mem_cons.mp hunderway.solid).2⟩
    apply ih h
    by_cases habsolute : (Path.mk target).isAbsolute = true
    · obtain ⟨outer, houter⟩ := root_folder hat
      rw [show start = [] from if_pos habsolute]
      exact .of_folder houter (fun _ hm => absurd hm List.not_mem_nil) hsolid
    · rw [show start = here from if_neg habsolute]
      exact .of_folder hat hunderway.named hsolid
  | case9 links here piece rest entries hat hcomponent hdots _ name inner hnolink hget ih =>
    obtain ⟨hpiece, hsolid⟩ := List.forall_mem_cons.mp hunderway.solid
    have hname : IsName name.toList := by
      rw [String.toList_ofList]
      exact ⟨by simpa using hcomponent, hpiece, hdots⟩
    have hinner : root.at? (here ++ [name]) = some inner := by
      rw [at?_append, hat, Option.bind_some, Entry.at?, hget, Option.bind_some, at?_nil]
    refine ih h ⟨?_, hsolid, fun _ target htarget => ?_⟩
    · exact List.forall_mem_append.mpr ⟨hunderway.named, List.forall_mem_singleton.mpr hname⟩
    · rw [hinner] at htarget
      exact hnolink target (Option.some.inj htarget)
  | _ => cases h

lemma resolve_names (hlink : ∀ target, e ≠ .link target) (hnamed : Named names)
    (hat : root.at? (here ++ names) = some e) :
    resolve root links here (names.map String.toList) = .ok (here ++ names, e) ∨
      ∃ refusal, resolve root links here (names.map String.toList) = .error refusal := by
  induction names generalizing here with
  | nil =>
    rw [List.append_nil] at hat ⊢
    rw [List.map_nil, resolve, hat]
    exact .inl rfl
  | cons name rest ih =>
    obtain ⟨hname, hrest⟩ := List.forall_mem_cons.mp hnamed
    rw [at?_append] at hat
    obtain ⟨outer, houter, hinner⟩ := Option.bind_eq_some_iff.mp hat
    obtain ⟨entries, inner, rfl, hget, hfound⟩ := exists_folder hinner
    have hnext : root.at? (here ++ [name] ++ rest) = some e := by
      rw [List.append_assoc, at?_append, houter]
      exact hinner
    rw [List.map_cons, resolve, houter]
    simp only [hname.component, Bool.not_true, Bool.false_eq_true, if_false, hname.named,
      String.ofList_toList, hget]
    split_ifs
    · exact .inr ⟨_, rfl⟩
    · cases inner with
      | link target =>
        cases rest with
        | nil =>
          rw [at?_nil] at hfound
          exact absurd (Option.some.inj hfound).symm (hlink target)
        | cons => cases hfound
      | file | folder => simpa using ih hrest hnext

lemma toList_namesPath (names : List String) :
    (namesPath names).text.toList = '/' :: slashed (names.map String.toList) := by
  rw [namesPath, String.toList_ofList]

lemma anchor_namesPath (names : List String) : (namesPath names).anchor = .root := by
  rw [anchor, toList_namesPath]
  rfl

lemma components_namesPath (hnamed : Named names) :
    (namesPath names).components = names.map String.toList := by
  rw [components, Path.pieces, anchor_namesPath, toList_namesPath]
  refine filter_pieces_names fun piece hm => ?_
  obtain ⟨name, hname, rfl⟩ := List.mem_map.mp hm
  exact hnamed name hname

lemma eq_of_same_namesPath {others : List String} (hnames : Named names) (hothers : Named others)
    (h : (namesPath names).same (namesPath others) = true) : names = others := by
  obtain ⟨-, hcomponents⟩ := same_iff.mp h
  rw [components_namesPath hnames, components_namesPath hothers] at hcomponents
  exact List.map_injective_iff.mpr (fun _ _ => String.toList_injective) hcomponents

lemma resolve_namesPath (h : Leads root names e) :
    resolve root links [] (slashPieces (namesPath names).text.toList) = .ok (names, e) ∨
      ∃ refusal,
        resolve root links [] (slashPieces (namesPath names).text.toList) = .error refusal := by
  have hskip (rest : List (List Char)) (links : Nat) :
      resolve root links [] ([] :: rest) = resolve root links [] rest ∨
        ∃ refusal, resolve root links [] ([] :: rest) = .error refusal := by
    rw [resolve, at?_nil]
    cases root with
    | folder entries => exact .inl rfl
    | file | link => exact .inr ⟨_, rfl⟩
  have hfirst : slashPieces (namesPath names).text.toList =
      [] :: Text.pieces '/' (slashed (names.map String.toList)) := by
    rw [toList_namesPath]
    rfl
  have hnames : resolve root links [] (names.map String.toList) = .ok ([] ++ names, e) ∨
      ∃ refusal, resolve root links [] (names.map String.toList) = .error refusal :=
    resolve_names h.unlinked h.named h.reached
  rw [hfirst]
  obtain heq | hrefused := hskip (Text.pieces '/' (slashed (names.map String.toList))) links
  · rw [heq]
    cases names with
    | nil =>
      obtain hempty | hrefused := hskip [] links
      · exact hempty ▸ hnames
      · exact .inr hrefused
    | cons name rest =>
      have hsolid : ∀ piece ∈ (name :: rest).map String.toList, '/' ∉ piece := by
        intro piece hm
        obtain ⟨other, hother, rfl⟩ := List.mem_map.mp hm
        exact (h.named other hother).solid
      rw [List.map_cons] at hsolid hnames ⊢
      rwa [pieces_slashed hsolid]
  · exact .inr hrefused

variable {working : List String} {p q : Path}

lemma leads_of_locate (hworking : Named working)
    (h : locate root working p = .ok (names, e)) : Leads root names e := by
  have hsolid : ∀ piece ∈ slashPieces p.text.toList, '/' ∉ piece :=
    fun _ hm => Text.not_mem_of_mem_pieces hm
  have hne : slashPieces p.text.toList ≠ [] := Text.pieces_ne_nil '/' _
  rw [locate] at h
  split_ifs at h
  · exact leads_of_resolve h ⟨fun _ hm => absurd hm List.not_mem_nil, hsolid, fun h => absurd h hne⟩
  · exact leads_of_resolve h ⟨hworking, hsolid, fun h => absurd h hne⟩

lemma locate_namesPath (h : Leads root names e) :
    locate root working (namesPath names) = .ok (names, e) ∨
      ∃ refusal, locate root working (namesPath names) = .error refusal := by
  have hfilled : (namesPath names).text.isEmpty = false := by
    rw [namesPath]
    simp
  have habsolute : (namesPath names).isAbsolute = true := by
    rw [isAbsolute, anchor_namesPath]
    rfl
  rw [locate, hfilled, habsolute]
  by_cases hnul : (namesPath names).text.toList.contains (Char.ofNat 0) = true
  · rw [if_pos hnul]
    exact .inr ⟨_, rfl⟩
  · rw [if_neg hnul]
    exact resolve_namesPath h

lemma realPath_eq : (fileSystem root working).realPath p =
    match locate root working p with
    | .ok (names, _) => namesPath names
    | .error _ => p := by
  rw [FileSystem.realPath]
  simp only [fileSystem]
  rcases locate root working p with refusal | ⟨names, e⟩ <;> rfl

lemma realPath_namesPath (h : Leads root names e) :
    (fileSystem root working).realPath (namesPath names) = namesPath names := by
  rw [realPath_eq]
  have hlocate : locate root working (namesPath names) = .ok (names, e) ∨
      ∃ refusal, locate root working (namesPath names) = .error refusal := locate_namesPath h
  obtain heq | ⟨refusal, heq⟩ := hlocate <;> rw [heq]

mutual

lemma mem_fileNames : (root : Entry) → ∀ {names bytes}, root.at? names = some (.file bytes) →
    names ∈ root.fileNames
  | .file _, [], _, _ => List.mem_singleton_self _
  | .folder entries, name :: rest, _, h => by
    obtain ⟨inner, hget, hinner⟩ := Option.bind_eq_some_iff.mp h
    exact mem_entriesFileNames entries hget hinner
  | .folder _, [], _, h | .link _, [], _, h | .file _, _ :: _, _, h | .link _, _ :: _, _, h => by
    cases h

lemma mem_entriesFileNames : (entries : List (String × Entry)) → ∀ {name inner rest bytes},
    Fields.get? entries name = some inner → inner.at? rest = some (.file bytes) →
    name :: rest ∈ entriesFileNames entries
  | (key, entry) :: more, name, inner, rest, bytes, hget, hinner => by
    rw [entriesFileNames, List.mem_append]
    rw [Fields.get?_cons] at hget
    split_ifs at hget with hkey
    · cases hget
      exact .inl (List.mem_map.mpr ⟨rest, mem_fileNames entry hinner, by rw [hkey]⟩)
    · exact .inr (mem_entriesFileNames more hget hinner)

end

lemma locate_of_read {source : String} (h : (fileSystem root working).read p = .ok source) :
    ∃ names bytes, locate root working p = .ok (names, .file bytes) := by
  change (readFile root working p).mapError Refusal.readError = _ at h
  rw [readFile, openAt] at h
  split_ifs at h
  · rcases hlocate : locate root working p with refusal | ⟨names, e⟩
    · rw [hlocate] at h
      cases h
    · rw [hlocate] at h
      cases e with
      | file bytes => exact ⟨names, bytes, rfl⟩
      | folder | link => cases h
  · cases h

theorem canonical_fileSystem (hworking : Named working) :
    (fileSystem root working).Canonical := by
  constructor
  · intro p
    suffices hidem : (fileSystem root working).realPath ((fileSystem root working).realPath p) =
        (fileSystem root working).realPath p by
      rw [hidem]
      exact same_refl _
    rw [realPath_eq (p := p)]
    rcases hlocate : locate root working p with refusal | ⟨names, e⟩
    · rw [realPath_eq, hlocate]
    · exact realPath_namesPath (leads_of_locate hworking hlocate)
  · intro p source hread
    obtain ⟨names, bytes, hlocate⟩ := locate_of_read hread
    have hleads := leads_of_locate hworking hlocate
    refine ⟨namesPath names, List.mem_map_of_mem (mem_fileNames root hleads.reached), ?_⟩
    rw [realPath_eq, hlocate]
    exact same_refl _

lemma eq_of_readable (hworking : Named working) {source source' : String}
    (hp : (fileSystem root working).read ((fileSystem root working).realPath p) = .ok source)
    (hq : (fileSystem root working).read ((fileSystem root working).realPath q) = .ok source')
    (h : ((fileSystem root working).realPath p).same ((fileSystem root working).realPath q)) :
    (fileSystem root working).realPath p = (fileSystem root working).realPath q := by
  have hchain : ∀ {path : Path} {text : String},
      (fileSystem root working).read ((fileSystem root working).realPath path) = .ok text →
      ∃ names, Named names ∧ (fileSystem root working).realPath path = namesPath names := by
    intro path text hread
    rcases hlocate : locate root working path with refusal | ⟨names, e⟩
    · rw [realPath_eq, hlocate] at hread
      obtain ⟨names, bytes, hfound⟩ := locate_of_read hread
      rw [hlocate] at hfound
      cases hfound
    · exact ⟨names, (leads_of_locate hworking hlocate).named, by rw [realPath_eq, hlocate]⟩
  obtain ⟨names, hnames, hpath⟩ := hchain hp
  obtain ⟨others, hothers, hpath'⟩ := hchain hq
  rw [hpath, hpath'] at h ⊢
  rw [eq_of_same_namesPath hnames hothers h]

end

end LayeredConfig.Disk
