import LayeredConfig.Proofs.FileSystem.Canonical
import Mathlib.Data.List.TakeWhile

namespace LayeredConfig

namespace Path

def behindAnchor (p : Path) : List Char := p.text.toList.drop p.anchor.text.length

lemma components_eq (p : Path) :
    p.components = (Text.pieces '/' p.behindAnchor).filter isComponent := rfl

def Behind : Anchor → List Char → Prop
  | .root, _ => True
  | .here, s => ∀ c ∈ s.head?, c = '/'
  | .none, s => s.head? ≠ some '/' ∧ s ≠ ['.'] ∧ ¬ ['.', '/'] <+: s

lemma behind_nil (a : Anchor) : Behind a [] := by
  cases a <;> simp [Behind]

lemma Behind.of_append {a : Anchor} {s t : List Char} (h : Behind a (s ++ '/' :: t)) :
    Behind a s := by
  cases a with
  | root => trivial
  | here =>
    cases s with
    | nil => exact behind_nil .here
    | cons c s => exact h
  | none =>
    obtain ⟨hfirst, -, hhere⟩ := h
    refine ⟨?_, ?_, fun hs => hhere (hs.trans (List.prefix_append _ _))⟩
    · cases s with
      | nil => simp
      | cons c s => exact hfirst
    · rintro rfl
      exact hhere ⟨t, rfl⟩

lemma Behind.append {a : Anchor} {s : List Char} (h : Behind a s) (hs : a = .none → s ≠ [])
    (t : List Char) : Behind a (s ++ '/' :: t) := by
  cases a with
  | root => trivial
  | here =>
    cases s with
    | nil => simp [Behind]
    | cons c s => exact h
  | none =>
    obtain ⟨hfirst, hdot, hhere⟩ := h
    obtain ⟨c, s, rfl⟩ := List.exists_cons_of_ne_nil (hs rfl)
    refine ⟨hfirst, by simp, fun hstart => ?_⟩
    cases s with
    | nil => exact hdot (congrArg ([·]) (List.cons_prefix_cons.mp hstart).1.symm)
    | cons d s => exact hhere (by simpa using hstart)

lemma anchor_of_behind {a : Anchor} {s : List Char} (h : Behind a s) :
    anchor ⟨String.ofList (a.text ++ s)⟩ = a := by
  rw [anchor, String.toList_ofList]
  cases a with
  | root => rfl
  | here =>
    cases s with
    | nil => rfl
    | cons c s =>
      obtain rfl := h c rfl
      rfl
  | none =>
    obtain ⟨hfirst, hdot, hhere⟩ := h
    split
    case h_1 rest hs => exact absurd (congrArg List.head? hs) hfirst
    case h_2 hs => exact absurd hs hdot
    case h_3 rest hs => exact absurd ⟨rest, hs.symm⟩ hhere
    case h_4 => rfl

lemma components_of_behind {a : Anchor} {s : List Char} (h : Behind a s) :
    components ⟨String.ofList (a.text ++ s)⟩ = (Text.pieces '/' s).filter isComponent := by
  rw [components, pieces, anchor_of_behind h, String.toList_ofList, List.drop_left]

lemma behind_behindAnchor (p : Path) :
    Behind p.anchor p.behindAnchor ∧ p.text.toList = p.anchor.text ++ p.behindAnchor := by
  rw [behindAnchor, anchor]
  split
  case h_1 rest h => simp [Behind, Anchor.text, h]
  case h_2 h => simp [Behind, Anchor.text, h]
  case h_3 rest h => simp [Behind, Anchor.text, h]
  case h_4 hroot hdot hhere =>
    refine ⟨⟨fun hfirst => ?_, hdot, ?_⟩, rfl⟩
    · obtain ⟨rest, h⟩ := List.head?_eq_some_iff.mp hfirst
      exact hroot rest h
    · rintro ⟨rest, h⟩
      exact hhere rest h.symm

lemma slashed_append {front : List (List Char)} (hfront : front ≠ []) (piece : List Char)
    (back : List (List Char)) :
    slashed (front ++ piece :: back) = slashed front ++ '/' :: slashed (piece :: back) := by
  induction front with
  | nil => exact absurd rfl hfront
  | cons first front ih =>
    cases front with
    | nil => simp [slashed, List.intercalate_cons_cons]
    | cons second front =>
      have hrest := ih (List.cons_ne_nil _ _)
      simp only [slashed, List.cons_append, List.intercalate_cons_cons] at hrest ⊢
      simp [hrest]

lemma slashed_pieces (p : Path) : slashed p.pieces = p.behindAnchor := by
  rw [slashed, pieces, Text.pieces_eq_splitOn]
  exact List.intercalate_splitOn '/'

lemma exists_removed {α : Type} (q : α → Bool) (s : List α) :
    ∃ removed, s = (s.reverse.dropWhile q).reverse ++ removed ∧ ∀ a ∈ removed, q a = true := by
  refine ⟨(s.reverse.takeWhile q).reverse, ?_, ?_⟩
  · rw [← List.reverse_append, List.takeWhile_append_dropWhile, List.reverse_reverse]
  · exact fun a ha => List.mem_takeWhile_imp (List.mem_reverse.mp ha)

lemma parent_cases (p : Path) :
    (p.components = [] ∧ p.parent = ⟨""⟩) ∨
      ∃ kept removed last, p.pieces = kept ++ removed ∧ removed.filter isComponent = [last] ∧
        p.parent = ⟨String.ofList (p.anchor.text ++ slashed kept)⟩ := by
  have hnone : ∀ pieces : List (List Char), (∀ piece ∈ pieces, (!isComponent piece) = true) →
      pieces.filter isComponent = [] :=
    fun pieces h => List.filter_eq_nil_iff.mpr fun piece hm => by simpa using h piece hm
  obtain ⟨after, hpieces, hafter⟩ := exists_removed (!isComponent ·) p.pieces
  have hhead := List.head?_dropWhile_not (!isComponent ·) p.pieces.reverse
  rw [parent]
  cases hlast : p.pieces.reverse.dropWhile (!isComponent ·) with
  | nil =>
    rw [hlast, List.reverse_nil, List.nil_append] at hpieces
    exact .inl ⟨by rw [components, hpieces, hnone after hafter], rfl⟩
  | cons last before =>
    obtain ⟨gap, hbefore, hgap⟩ := exists_removed (!isComponent ·) before.reverse
    rw [List.reverse_reverse] at hbefore
    rw [hlast] at hpieces hhead
    refine .inr ⟨_, gap ++ last :: after, last, ?_, ?_, rfl⟩
    · rw [hpieces, List.reverse_cons, hbefore]
      simp
    · rw [List.filter_append, hnone gap hgap, List.filter_cons_of_pos (by simpa using hhead),
        hnone after hafter]
      rfl

lemma parent_split (p : Path) :
    p.parent.components = p.components.dropLast ∧
      p.parent.anchor = if p.components = [] then .none else p.anchor := by
  obtain ⟨hnone, hparent⟩ | ⟨kept, removed, last, hpieces, hremoved, hparent⟩ := parent_cases p
  · rw [hparent, hnone, if_pos rfl]
    exact ⟨rfl, rfl⟩
  · have hcomponents : p.components = kept.filter isComponent ++ [last] := by
      rw [components, hpieces, List.filter_append, hremoved]
    have hbehind : Behind p.anchor (slashed kept) := by
      obtain rfl | hkept := eq_or_ne kept []
      · exact behind_nil _
      · obtain ⟨first, rest, rfl⟩ : ∃ first rest, removed = first :: rest :=
          List.exists_cons_of_ne_nil fun hnil => by simp [hnil] at hremoved
        refine Behind.of_append (t := slashed (first :: rest)) ?_
        rw [← slashed_append hkept, ← hpieces, slashed_pieces]
        exact (behind_behindAnchor p).1
    have hsolid : ∀ piece ∈ kept, '/' ∉ piece := fun piece hm =>
      Text.not_mem_of_mem_pieces (hpieces ▸ List.mem_append_left removed hm : piece ∈ p.pieces)
    rw [hparent, components_of_behind hbehind, anchor_of_behind hbehind, hcomponents, filter_pieces_slashed hsolid]
    simp

section

variable {p q : Path} (hp : p.text ≠ "") (hq : q.isAbsolute = false)
include hp hq

lemma toList_join : (p.join q).text.toList =
    p.text.toList ++ (if p.endsInSlash then [] else ['/']) ++ q.text.toList := by
  have hempty : p.text.isEmpty = false := by simpa using hp
  rw [join, hq, hempty]
  cases p.endsInSlash <;> simp

lemma exists_behind_join : ∃ s, (p.join q).text.toList = p.anchor.text ++ s ∧ Behind p.anchor s ∧
    (Text.pieces '/' s).filter isComponent =
      p.components ++ (Text.pieces '/' q.text.toList).filter isComponent := by
  obtain ⟨hbehind, htext⟩ := behind_behindAnchor p
  rw [toList_join hp hq, components_eq, htext]
  cases hslash : p.endsInSlash with
  | true =>
    have hlast : (p.anchor.text ++ p.behindAnchor).getLast? = some '/' := by
      simpa [endsInSlash, htext] using hslash
    obtain hnil | ⟨y, c, hy⟩ := List.eq_nil_or_concat p.behindAnchor
    · have hroot : p.anchor = .root := by
        rw [hnil, List.append_nil] at hlast
        cases hanchor : p.anchor <;> simp [hanchor, Anchor.text] at hlast ⊢
      refine ⟨q.text.toList, by simp [hnil], ?_, by simp [hnil, Text.pieces, isComponent]⟩
      rw [hroot]
      trivial
    · obtain rfl : c = '/' := by simpa [hy] using hlast
      rw [List.concat_eq_append] at hy
      rw [hy] at hbehind ⊢
      refine ⟨y ++ '/' :: q.text.toList, by simp, hbehind.of_append.append ?_ _, ?_⟩
      · rintro hnone rfl
        rw [hnone] at hbehind
        exact hbehind.1 rfl
      · simp [Text.pieces_append_cons, Text.pieces, isComponent]
  | false =>
    refine ⟨p.behindAnchor ++ '/' :: q.text.toList, by simp, hbehind.append ?_ _, ?_⟩
    · intro hnone hnil
      rw [hnone, hnil] at htext
      exact hp (by simpa [Anchor.text] using htext)
    · rw [Text.pieces_append_cons, List.filter_append]

lemma join_split : (p.join q).anchor = p.anchor ∧ (p.join q).components =
    p.components ++ (Text.pieces '/' q.text.toList).filter isComponent := by
  obtain ⟨s, htext, hs, hcomponents⟩ := exists_behind_join hp hq
  have hjoin : p.join q = ⟨String.ofList (p.anchor.text ++ s)⟩ := by
    rw [← htext, String.ofList_toList]
  rw [hjoin, components_of_behind hs, anchor_of_behind hs, hcomponents]
  exact ⟨rfl, rfl⟩

end

lemma eq_empty_of_components {p : Path} (hanchor : p.anchor = .none) (h : p.components = []) :
    p.text = "" := by
  obtain ⟨⟨hfirst, hdot, hhere⟩, htext⟩ := hanchor ▸ behind_behindAnchor p
  have hbehind : p.behindAnchor = [] := by
    rw [← slashed_pieces] at hfirst hdot hhere ⊢
    have hnone : ∀ piece ∈ p.pieces, ¬ isComponent piece = true := List.filter_eq_nil_iff.mp h
    generalize p.pieces = pieces at *
    cases pieces with
    | nil => rfl
    | cons first rest =>
      have hdotted : first = [] ∨ first = ['.'] := by
        simpa [isComponent, or_iff_not_imp_left] using hnone first List.mem_cons_self
      cases rest with
      | nil =>
        obtain rfl | rfl := hdotted
        · rfl
        · exact absurd rfl hdot
      | cons second rest =>
        have hslash : slashed (first :: second :: rest) = first ++ '/' :: slashed (second :: rest) := by
          simp [slashed, List.intercalate_cons_cons]
        rw [hslash] at hfirst hhere
        obtain rfl | rfl := hdotted
        · exact absurd rfl hfirst
        · exact absurd ⟨_, rfl⟩ hhere
  simpa [hbehind, Anchor.text] using htext

lemma eq_empty_of_same {p q : Path} (h : p.same q = true) (hp : p.text = "") : q.text = "" := by
  obtain ⟨text⟩ := p
  obtain rfl : text = "" := hp
  obtain ⟨hanchor, hcomponents⟩ := same_iff.mp h
  exact eq_empty_of_components hanchor.symm hcomponents.symm

lemma same_parent {p q : Path} (h : p.same q = true) : p.parent.same q.parent = true := by
  obtain ⟨hanchor, hcomponents⟩ := same_iff.mp h
  have hp := parent_split p
  have hq := parent_split q
  refine same_iff.mpr ⟨?_, ?_⟩
  · rw [hp.2, hq.2, hanchor, hcomponents]
  · rw [hp.1, hq.1, hcomponents]

lemma same_join {p q : Path} (h : p.same q = true) {r : Path} (hr : r.isAbsolute = false) :
    (p.join r).same (q.join r) = true := by
  obtain ⟨hanchor, hcomponents⟩ := same_iff.mp h
  have htext : p.text = "" ↔ q.text = "" := ⟨eq_empty_of_same h, eq_empty_of_same (same_symm h)⟩
  by_cases hp : p.text = ""
  · have hq := htext.mp hp
    have hjoin : ∀ base : Path, base.text = "" → base.join r = r := by
      intro base hbase
      rw [join, hbase]
      simp
    rw [hjoin p hp, hjoin q hq]
    exact same_refl r
  · obtain ⟨hpa, hpc⟩ := join_split hp hr
    obtain ⟨hqa, hqc⟩ := join_split (mt htext.mpr hp) hr
    exact same_iff.mpr ⟨hpa.trans (hanchor.trans hqa.symm), by rw [hpc, hqc, hcomponents]⟩

end Path

end LayeredConfig
