import LayeredConfig.FileSystem.Listing
import LayeredConfig.Proofs.Text.Splitting

namespace LayeredConfig

namespace Path

variable {p q r : Path}

lemma same_iff : p.same q = true ↔ p.anchor = q.anchor ∧ p.components = q.components := by
  simp [same]

lemma same_refl (p : Path) : p.same p = true := same_iff.mpr ⟨rfl, rfl⟩

lemma same_symm (h : p.same q = true) : q.same p = true := by
  obtain ⟨hanchor, hcomponents⟩ := same_iff.mp h
  exact same_iff.mpr ⟨hanchor.symm, hcomponents.symm⟩

lemma same_trans (h : p.same q = true) (h' : q.same r = true) : p.same r = true := by
  obtain ⟨hanchor, hcomponents⟩ := same_iff.mp h
  obtain ⟨hanchor', hcomponents'⟩ := same_iff.mp h'
  exact same_iff.mpr ⟨hanchor.trans hanchor', hcomponents.trans hcomponents'⟩

structure IsName (piece : List Char) : Prop where
  component : isComponent piece = true
  solid : '/' ∉ piece
  named : piece ≠ ['.', '.']

lemma IsName.ne_nil {piece : List Char} (h : IsName piece) : piece ≠ [] := by
  rintro rfl
  exact absurd h.component (by decide)

lemma IsName.ne_dot {piece : List Char} (h : IsName piece) : piece ≠ ['.'] := by
  rintro rfl
  exact absurd h.component (by decide)

lemma mem_collapse {done pieces : List (List Char)} {piece : List Char}
    (h : piece ∈ collapse done pieces) :
    piece ∈ done ∨ piece ∈ pieces ∧ piece ≠ ['.', '.'] := by
  induction pieces generalizing done with
  | nil => exact .inl (List.mem_reverse.mp h)
  | cons first rest ih =>
    rw [collapse] at h
    split at h
    · exact (ih h).imp List.mem_of_mem_tail fun ⟨hm, hne⟩ => ⟨List.mem_cons_of_mem _ hm, hne⟩
    · rename_i hfirst
      obtain hm | ⟨hm, hne⟩ := ih h
      · obtain rfl | hm := List.mem_cons.mp hm
        · exact .inr ⟨List.mem_cons_self, hfirst⟩
        · exact .inl hm
      · exact .inr ⟨List.mem_cons_of_mem _ hm, hne⟩

lemma collapse_of_names {done names : List (List Char)} (h : ∀ name ∈ names, IsName name) :
    collapse done names = done.reverse ++ names := by
  induction names generalizing done with
  | nil => simp [collapse]
  | cons name rest ih =>
    obtain ⟨hname, hrest⟩ := List.forall_mem_cons.mp h
    rw [collapse, if_neg hname.named, ih hrest]
    simp

lemma isName_of_mem_collapse {p : Path} {name : List Char}
    (h : name ∈ collapse [] p.components) : IsName name := by
  obtain hm | ⟨hm, hne⟩ := mem_collapse h
  · exact absurd hm List.not_mem_nil
  · obtain ⟨hpiece, hcomponent⟩ := List.mem_filter.mp hm
    exact ⟨hcomponent, Text.not_mem_of_mem_pieces hpiece, hne⟩

lemma pieces_slashed {name : List Char} {rest : List (List Char)}
    (h : ∀ other ∈ name :: rest, '/' ∉ other) :
    Text.pieces '/' (slashed (name :: rest)) = name :: rest := by
  rw [Text.pieces_eq_splitOn, slashed]
  exact List.splitOn_intercalate '/' h (List.cons_ne_nil _ _)

lemma filter_pieces_slashed {pieces : List (List Char)} (h : ∀ piece ∈ pieces, '/' ∉ piece) :
    (Text.pieces '/' (slashed pieces)).filter isComponent = pieces.filter isComponent := by
  cases pieces with
  | nil => rfl
  | cons first rest => rw [pieces_slashed h]

section

variable {names : List (List Char)} (hnames : ∀ name ∈ names, IsName name)
include hnames

lemma filter_pieces_names :
    (Text.pieces '/' (slashed names)).filter isComponent = names := by
  rw [filter_pieces_slashed fun name hm => (hnames name hm).solid, List.filter_eq_self]
  exact fun name hm => (hnames name hm).component

lemma anchor_slashed : anchor ⟨String.ofList (slashed names)⟩ = .none := by
  cases names with
  | nil => rfl
  | cons name rest =>
    have hname := hnames name List.mem_cons_self
    have hpieces := pieces_slashed fun other hm => (hnames other hm).solid
    rw [anchor, String.toList_ofList]
    generalize slashed (name :: rest) = text at hpieces
    split
    · exact absurd (List.cons.inj hpieces).1.symm hname.ne_nil
    · exact absurd (List.cons.inj hpieces).1.symm hname.ne_dot
    · exact absurd (List.cons.inj hpieces).1.symm hname.ne_dot
    · rfl

end

lemma normal_of_absolute {p : Path} (h : p.isAbsolute = true) :
    p.normal = ⟨String.ofList ('/' :: slashed (collapse [] p.components))⟩ := by
  rw [normal, h, if_pos rfl]

lemma normal_of_relative {p : Path} (h : p.isAbsolute = false) :
    p.normal = ⟨String.ofList (slashed (collapse [] p.components))⟩ := by
  rw [normal, h, if_neg Bool.false_ne_true]

lemma normal_split (p : Path) : p.normal.isAbsolute = p.isAbsolute ∧
    p.normal.components = collapse [] p.components := by
  have hnames : ∀ name ∈ collapse [] p.components, IsName name := fun _ => isName_of_mem_collapse
  cases habsolute : p.isAbsolute with
  | true =>
    rw [normal_of_absolute habsolute]
    generalize collapse [] p.components = names at hnames ⊢
    have hanchor : anchor ⟨String.ofList ('/' :: slashed names)⟩ = .root := by
      rw [anchor, String.toList_ofList]
      rfl
    rw [isAbsolute, components, pieces, hanchor, String.toList_ofList]
    exact ⟨rfl, filter_pieces_names hnames⟩
  | false =>
    rw [normal_of_relative habsolute]
    generalize collapse [] p.components = names at hnames ⊢
    rw [isAbsolute, components, pieces, anchor_slashed hnames, String.toList_ofList]
    exact ⟨rfl, filter_pieces_names hnames⟩

lemma normal_normal (p : Path) : p.normal.normal = p.normal := by
  have hnames : ∀ name ∈ collapse [] p.components, IsName name := fun _ => isName_of_mem_collapse
  obtain ⟨habsolute, hcomponents⟩ := normal_split p
  rw [normal, habsolute, hcomponents, collapse_of_names hnames]
  rfl

lemma normal_congr (h : p.same q = true) : p.normal = q.normal := by
  obtain ⟨hanchor, hcomponents⟩ := same_iff.mp h
  rw [normal, normal, isAbsolute, isAbsolute, hanchor, hcomponents]

end Path

/-- Each file that can be read has a canonical path, which is its own, among finitely many. -/
structure FileSystem.Canonical (files : FileSystem) : Prop where
  idempotent : ∀ p, (files.realPath (files.realPath p)).same (files.realPath p) = true
  listed : ∀ p source, files.read p = .ok source →
    ∃ q ∈ files.files, (files.realPath p).same q = true

structure FileSystem.Finite (files : FileSystem) : Prop where
  listed : ∀ p source, files.read (files.realPath p) = .ok source →
    ∃ q ∈ files.files, (files.realPath p).same q = true

lemma FileSystem.Canonical.finite {files : FileSystem} (h : files.Canonical) : files.Finite := by
  refine ⟨fun p source hread => ?_⟩
  obtain ⟨q, hq, hsame⟩ := h.listed _ source hread
  exact ⟨q, hq, Path.same_trans (Path.same_symm (h.idempotent p)) hsame⟩

instance {files : FileSystem} : Coe files.Canonical files.Finite := ⟨fun h => h.finite⟩

structure FileSystem.Coherent (files : FileSystem) : Prop where
  read : ∀ p q, p.same q = true → files.read p = files.read q
  realPath : ∀ p q, p.same q = true → (files.realPath p).same (files.realPath q) = true

namespace Listing

lemma realPath_eq (files : Listing) (p : Path) :
    files.fileSystem.realPath p = if has files p.normal then p.normal else p := by
  rw [FileSystem.realPath]
  change (if has files p.normal then some p.normal else none).getD p = _
  split <;> rfl

lemma has_eq_any (files : Listing) (p : Path) :
    has files p = (files.map (·.1)).any (·.same p) := by
  rw [has, find?, Option.isSome_map, List.isSome_find?, List.any_reverse, List.any_map]
  rfl

lemma exists_same_of_has {files : Listing} {p : Path} (h : has files p = true) :
    ∃ q ∈ files.fileSystem.files, p.same q = true := by
  rw [has_eq_any, List.any_eq_true] at h
  obtain ⟨q, hq, hsame⟩ := h
  exact ⟨q, hq, Path.same_symm hsame⟩

lemma canonical_fileSystem (files : Listing) : files.fileSystem.Canonical := by
  constructor
  · intro p
    have hidem : files.fileSystem.realPath (files.fileSystem.realPath p) =
        files.fileSystem.realPath p := by
      rw [realPath_eq files p]
      by_cases hp : has files p.normal = true
      · rw [if_pos hp, realPath_eq, Path.normal_normal, if_pos hp]
      · rw [if_neg hp, realPath_eq, if_neg hp]
    rw [hidem]
    exact Path.same_refl _
  · intro p source hread
    rw [realPath_eq]
    by_cases hp : has files p.normal = true
    · rw [if_pos hp]
      exact exists_same_of_has hp
    · rw [if_neg hp]
      apply exists_same_of_has
      change (find? files p).getD _ = _ at hread
      rw [has]
      cases hfind : find? files p with
      | some content => rfl
      | none => simp [hfind] at hread

lemma find?_congr {p q : Path} (h : p.same q = true) (files : Listing) :
    find? files p = find? files q := by
  have hsame : ∀ r : Path, r.same p = r.same q := by
    intro r
    rw [Bool.eq_iff_iff]
    exact ⟨fun hp => Path.same_trans hp h, fun hq => Path.same_trans hq (Path.same_symm h)⟩
  simp only [find?, hsame]

lemma coherent_fileSystem (files : Listing) : files.fileSystem.Coherent := by
  constructor
  · intro p q h
    change (find? files p).getD _ = (find? files q).getD _
    rw [find?_congr h]
  · intro p q h
    rw [realPath_eq, realPath_eq, Path.normal_congr h]
    split
    · exact Path.same_refl _
    · exact h

end Listing

end LayeredConfig
