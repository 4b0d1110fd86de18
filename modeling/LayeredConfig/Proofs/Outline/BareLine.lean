import LayeredConfig.Import.HeaderLine
import LayeredConfig.Proofs.Ascription.Shape
import LayeredConfig.Proofs.Outline.Bare
import LayeredConfig.Proofs.Outline.Outlined

/-! Taking the annotation out of the text of a line leaves the row without it. -/

namespace LayeredConfig.Outline

open Ascription Text

def Row.key? : Row → Option String
  | .header key => some key
  | .entry key _ => some key
  | .item _ => none

def markKey? (mark : Mark) : Option String := mark.2.bind Row.key?

def bareLine (raw : List Char) : List Char :=
  match (mark? raw).bind markKey? with
  | some key =>
    let lead := raw.takeWhile isBlank
    lead ++ (strip key).toList ++ raw.drop (lead.length + key.toList.length)
  | none => raw

structure Named (key : String) : Prop where
  single : read? (strip key) = none
  unmarked : read? key ≠ none → ∀ c ∈ (strip key).toList.head?, c ∉ ['@', '#', '%', '-']

structure Tidy (key : String) : Prop extends Named key where
  solid : ∀ c ∈ (strip key).toList.getLast?, isBlank c = false

instance : DecidablePred Named := fun key =>
  decidable_of_iff
    (read? (strip key) = none ∧ (read? key ≠ none →
      (strip key).toList.head?.all fun c => !(['@', '#', '%', '-'].contains c)))
    ⟨fun ⟨single, unmarked⟩ => ⟨single, fun h => by simpa [Option.all_eq_true] using unmarked h⟩,
      fun h => ⟨h.single, fun hkey => by simpa [Option.all_eq_true] using h.unmarked hkey⟩⟩

instance : DecidablePred Tidy := fun key =>
  decidable_of_iff (Named key ∧ (strip key).toList.getLast?.all (!isBlank ·))
    ⟨fun ⟨named, solid⟩ => ⟨named, by simpa [Option.all_eq_true] using solid⟩,
      fun h => ⟨h.toNamed, by simpa [Option.all_eq_true] using h.solid⟩⟩

lemma exists_base {key : String} (hannotated : read? key ≠ none)
    (hsingle : read? (strip key) = none) : ∃ base typeName,
      key.toList = base ++ bracketed typeName ∧ base ≠ [] ∧ strip key = String.ofList base := by
  obtain ⟨hnone, -⟩ | ⟨base, typeName, hkey, hname, hstrip⟩ := strip_cases key
  · exact absurd hnone hannotated
  · refine ⟨base, typeName, hkey, ?_⟩
    cases base with
    | nil =>
      rw [if_pos List.isEmpty_nil] at hstrip
      rw [hstrip] at hsingle
      exact absurd hsingle hannotated
    | cons c rest => exact ⟨List.cons_ne_nil c rest, hstrip⟩

def Row.rename (name : String) : Row → Row
  | .header _ => .header name
  | .entry _ value => .entry name value
  | .item node => .item node

structure KeyFirst (text : List Char) (row : Row) (key : List Char) (after : List Char) : Prop where
  split : text = key ++ after
  after_ne : after ≠ []
  renamed : ∀ base, base ≠ [] → Trimmed base → (∀ c ∈ base, c ∈ key) →
    (∀ c ∈ base.head?, c ≠ '-') → Row.read? (base ++ after) = some (row.rename (String.ofList base))

lemma front_split {t : List Char} (h : ∀ c ∈ t.head?, isBlank c = false) :
    ∃ c, Blanks c ∧ t = trim t ++ c := by
  obtain ⟨c, hc, hsplit⟩ := trimEnd_split t
  refine ⟨c, hc, ?_⟩
  rw [trim, trimStart_of_first h]
  exact hsplit

lemma trim_back {base c : List Char} (hbase : Trimmed base) (hne : base ≠ []) (hc : Blanks c) :
    trim (base ++ c) = base :=
  trim_append (b := []) (fun _ h => by cases h) hbase hne hc

lemma listContent?_of_first {s : List Char} (hs : s ≠ []) (h : ∀ c ∈ s.head?, c ≠ '-') :
    listContent? s = none := by
  unfold listContent?
  split
  · exact absurd rfl (h '-' rfl)
  · rfl

lemma headerKey?_eq_some {text key : List Char} :
    headerKey? text = some key ↔ '=' ∉ text ∧ ∃ front, text = front ++ [':'] ∧ trim front = key := by
  simp only [headerKey?, List.contains_iff_mem]
  split
  · simp [*]
  · simp [*, dropEnd?_eq_some]

lemma headerKey?_eq_none {text : List Char} :
    headerKey? text = none ↔ '=' ∈ text ∨ text.getLast? ≠ some ':' := by
  rw [Option.eq_none_iff_forall_ne_some]
  constructor
  · intro h
    by_contra hnot
    obtain ⟨hequal, hlast⟩ := not_or.mp hnot
    obtain ⟨front, hfront⟩ := List.getLast?_eq_some_iff.mp (not_not.mp hlast)
    exact h _ (headerKey?_eq_some.mpr ⟨hequal, front, hfront, rfl⟩)
  · rintro h key hkey
    obtain ⟨hequal, front, rfl, -⟩ := headerKey?_eq_some.mp hkey
    exact h.elim hequal fun hlast => hlast (by simp)

lemma first_of_append {s t : List Char} (h : Trimmed (s ++ t)) : ∀ c ∈ s.head?, isBlank c = false := by
  intro c hc
  refine h.first c ?_
  rw [List.head?_append]
  exact Option.or_eq_some_iff.mpr (.inl hc)

lemma keyFirst_header {text key : List Char} (htext : Trimmed text)
    (h : headerKey? text = some key) : ∃ after, KeyFirst text (.header (String.ofList key)) key after := by
  obtain ⟨hequal, front, rfl, rfl⟩ := headerKey?_eq_some.mp h
  obtain ⟨c, hblanks, hkey⟩ := front_split (first_of_append htext)
  refine ⟨c ++ [':'], by rw [← List.append_assoc, ← hkey], by simp, ?_⟩
  intro base hne hbase hsub _
  have hnot : '=' ∉ base ++ c ++ [':'] := by
    simp only [List.mem_append] at hequal ⊢
    rintro ((hm | hm) | hm)
    · exact hequal (.inl (hkey ▸ List.mem_append_left c (hsub _ hm)))
    · exact hequal (.inl (hkey ▸ List.mem_append_right _ hm))
    · exact hequal (.inr hm)
  have hheader : headerKey? (base ++ c ++ [':']) = some base :=
    headerKey?_eq_some.mpr ⟨hnot, base ++ c, rfl, trim_back hbase hne hblanks⟩
  simp only [Row.read?, ← List.append_assoc, hheader, Row.rename]

lemma keyFirst_entry {text : List Char} {row : Row} {key : String} (htext : Trimmed text)
    (hheader : headerKey? text = none) (h : readEntry text = some row)
    (hkey : row.key? = some key) : ∃ after, KeyFirst text row key.toList after := by
  rw [readEntry] at h
  split at h
  · cases h
  · cases h
  · rename_i front mark rest hfront hcut
    cases h
    cases hkey
    obtain ⟨rfl, hmark, hnone⟩ := cut_eq_some.mp hcut
    obtain ⟨c, hblanks, hsplit⟩ := front_split (first_of_append htext)
    rw [String.toList_ofList]
    refine ⟨c ++ mark :: rest, by rw [← List.append_assoc, ← hsplit], by simp, ?_⟩
    intro base hne hbase hsub hdash
    have hin : ∀ d ∈ base ++ c, d ∈ front := by
      intro d hd
      rw [hsplit]
      exact List.mem_append.mpr ((List.mem_append.mp hd).imp_left (hsub d))
    have hequal : '=' ∉ front := fun hm => by simpa using hnone _ hm
    have hheader' : headerKey? (base ++ c ++ mark :: rest) = none := by
      rw [headerKey?_eq_none] at hheader ⊢
      rw [List.getLast?_append_cons] at hheader ⊢
      refine hheader.imp_left fun hm => List.mem_append_right _ ?_
      exact (List.mem_append.mp hm).resolve_left hequal
    have hlist : listContent? (base ++ c ++ mark :: rest) = none := by
      obtain ⟨d, others, rfl⟩ := List.exists_cons_of_ne_nil hne
      exact listContent?_of_first (by simp) hdash
    have hcut' : cut (fun c => c == ':' || c == '=') (base ++ c ++ mark :: rest) =
        some (base ++ c, mark, rest) :=
      cut_eq_some.mpr ⟨rfl, hmark, fun d hd => hnone d (hin d hd)⟩
    obtain ⟨d, others, hcons⟩ := List.exists_cons_of_ne_nil
      (show base ++ c ≠ [] from List.append_ne_nil_of_left_ne_nil hne c)
    rw [Row.read?, ← List.append_assoc, hheader', hlist]
    simp only [readEntry, hcut', Row.rename]
    rw [hcons]
    simp only [← hcons, trim_back hbase hne hblanks]

lemma exists_keyFirst {text : List Char} {row : Row} {key : String} (htext : Trimmed text)
    (hread : Row.read? text = some row) (hkey : row.key? = some key) :
    ∃ after, KeyFirst text row key.toList after := by
  rw [Row.read?] at hread
  split at hread
  · rename_i header hheader
    cases hread
    cases hkey
    rw [String.toList_ofList]
    exact keyFirst_header htext hheader
  · rename_i hheader
    split at hread
    · cases hread
      cases hkey
    · exact keyFirst_entry htext hheader hread hkey

lemma Row.bare_eq_rename {row : Row} {key : String} (h : row.key? = some key) :
    row.bare = row.rename (strip key) := by
  cases row <;> cases h <;> rfl

lemma Row.bare_of_unannotated {row : Row} (h : ∀ key, row.key? = some key → Ascription.read? key = none) :
    row.bare = row := by
  cases row with
  | item node => rfl
  | header key => exact congrArg Row.header (strip_of_unannotated (h key rfl))
  | entry key value =>
    exact congrArg (Row.entry · value) (strip_of_unannotated (h key rfl))

lemma indentOf_append {lead s : List Char} (hne : s ≠ [])
    (hs : ∀ c ∈ s.head?, isBlank c = false) (t : List Char) :
    indentOf (lead ++ s ++ t) = (lead.takeWhile fun c => c == ' ' || c == '\t').length := by
  obtain ⟨c, rest, rfl⟩ := List.exists_cons_of_ne_nil hne
  have hc : (c == ' ' || c == '\t') = false := by
    have hblank := hs c rfl
    rw [Bool.or_eq_false_iff, beq_eq_false_iff_ne, beq_eq_false_iff_ne]
    constructor
    · rintro rfl
      exact absurd hblank (by decide)
    · rintro rfl
      exact absurd hblank (by decide)
  rw [indentOf, List.append_assoc, List.cons_append, takeWhile_append_cons_of_neg hc]

lemma isSkipped_of_first {s : List Char} (hne : s ≠ [])
    (h : ∀ c ∈ s.head?, c ∉ ['@', '#', '%', '-']) : isSkipped s = false := by
  obtain ⟨c, rest, rfl⟩ := List.exists_cons_of_ne_nil hne
  have hc := h c rfl
  simp only [List.mem_cons, List.not_mem_nil, or_false, not_or] at hc
  unfold isSkipped
  split <;> simp_all

section

variable {raw after : List Char} {row : Row} {key : String}

lemma bareLine_eq (hmark : mark? raw = some (indentOf raw, some row)) (hkey : row.key? = some key)
    (hfirst : KeyFirst (trim raw) row key.toList after) :
    ∃ trail, Blanks trail ∧ raw = raw.takeWhile isBlank ++ (key.toList ++ after) ++ trail ∧
      bareLine raw = raw.takeWhile isBlank ++ ((strip key).toList ++ after) ++ trail := by
  obtain ⟨trail, htrail, hsplit⟩ := trim_split_lead raw
  rw [hfirst.split] at hsplit
  refine ⟨trail, htrail, hsplit, ?_⟩
  have hdrop : raw.drop ((raw.takeWhile isBlank).length + key.toList.length) = after ++ trail := by
    conv => lhs; arg 2; rw [hsplit]
    rw [← List.length_append, List.append_assoc, List.append_assoc, ← List.append_assoc,
      List.drop_left]
  simp only [bareLine, hmark, Option.bind_some, markKey?, hkey, hdrop, List.append_assoc]

lemma bareLine_annotated (hmark : mark? raw = some (indentOf raw, some row))
    (hkey : row.key? = some key) (hfirst : KeyFirst (trim raw) row key.toList after)
    (hannotated : read? key ≠ none) (htidy : Tidy key) :
    isSkipped (trim (bareLine raw)) = false ∧ indentOf (bareLine raw) = indentOf raw ∧
      Row.read? (trim (bareLine raw)) = some row.bare := by
  obtain ⟨trail, htrail, hraw, hbare⟩ := bareLine_eq hmark hkey hfirst
  obtain ⟨base, typeName, hbracketed, hne, hstrip⟩ := exists_base hannotated htidy.single
  have hname : (strip key).toList = base := by rw [hstrip, String.toList_ofList]
  have hlead : Blanks (raw.takeWhile isBlank) := blanks_takeWhile raw
  have htext : Trimmed (key.toList ++ after) := hfirst.split ▸ trimmed_trim raw
  have hhead : base.head? = key.toList.head? := by
    obtain ⟨c, rest, rfl⟩ := List.exists_cons_of_ne_nil hne
    rw [hbracketed]
    rfl
  have hbase : Trimmed base :=
    ⟨hhead ▸ first_of_append htext, hname ▸ htidy.solid⟩
  have hmarks := htidy.unmarked hannotated
  rw [hname] at hbare hmarks
  have hrenamed : Trimmed (base ++ after) := by
    constructor
    · rw [List.head?_append_of_ne_nil _ hne]
      exact hbase.first
    · rw [List.getLast?_append_of_ne_nil _ hfirst.after_ne, ← List.getLast?_append_of_ne_nil _ hfirst.after_ne]
      exact htext.last
  have hne' : base ++ after ≠ [] := List.append_ne_nil_of_left_ne_nil hne after
  have hkeyNe : key.toList ++ after ≠ [] := List.append_ne_nil_of_right_ne_nil _ hfirst.after_ne
  have htrim : trim (bareLine raw) = base ++ after := by
    rw [hbare, trim_append hlead hrenamed hne' htrail]
  rw [htrim]
  refine ⟨isSkipped_of_first hne' ?_, ?_, ?_⟩
  · rw [List.head?_append_of_ne_nil _ hne]
    exact hmarks
  · conv => rhs; rw [hraw]
    rw [hbare, indentOf_append hne' hrenamed.first, indentOf_append hkeyNe htext.first]
  · rw [Row.bare_eq_rename hkey, hstrip]
    refine hfirst.renamed base hne hbase ?_ ?_
    · intro c hc
      rw [hbracketed]
      exact List.mem_append_left _ hc
    · rintro c hc rfl
      exact hmarks _ hc (by simp)

end

lemma head?_of_not_skipped {s : List Char} (h : isSkipped s = false) : ¬ s.head? = some '%' := by
  intro hhead
  obtain ⟨rest, rfl⟩ := List.head?_eq_some_iff.mp hhead
  cases h

lemma bareLine_cases {raw : List Char}
    (h : ∀ mark ∈ mark? raw, ∀ key ∈ markKey? mark, Tidy key) :
    (bareLine raw = raw ∧ (mark? raw).map bareMark = mark? raw) ∨
      ∃ row, mark? raw = some (indentOf raw, some row) ∧
        isSkipped (trim (bareLine raw)) = false ∧ indentOf (bareLine raw) = indentOf raw ∧
        Row.read? (trim (bareLine raw)) = some row.bare := by
  by_cases hskip : isSkipped (trim raw)
  · have hmark : mark? raw = none := if_pos hskip
    exact .inl ⟨by simp [bareLine, hmark], by simp [hmark]⟩
  have hmark : mark? raw = some (indentOf raw, Row.read? (trim raw)) := if_neg hskip
  cases hread : Row.read? (trim raw) with
  | none =>
    rw [hread] at hmark
    exact .inl ⟨by simp [bareLine, hmark, markKey?], by simp [hmark, bareMark]⟩
  | some row =>
    rw [hread] at hmark
    cases hkey : row.key? with
    | none =>
      have hbare : row.bare = row := Row.bare_of_unannotated fun key hk => by simp [hkey] at hk
      exact .inl ⟨by simp [bareLine, hmark, markKey?, hkey], by simp [hmark, bareMark, hbare]⟩
    | some key =>
      obtain ⟨after, hfirst⟩ := exists_keyFirst (trimmed_trim raw) hread hkey
      by_cases hannotated : read? key = none
      · have hbare : row.bare = row := by
          refine Row.bare_of_unannotated fun other hk => ?_
          rw [hkey] at hk
          cases hk
          exact hannotated
        obtain ⟨trail, -, hraw, heq⟩ := bareLine_eq hmark hkey hfirst
        rw [strip_of_unannotated hannotated] at heq
        exact .inl ⟨heq.trans hraw.symm, by simp [hmark, bareMark, hbare]⟩
      · have htidy := h _ hmark key hkey
        exact .inr ⟨row, hmark, bareLine_annotated hmark hkey hfirst hannotated htidy⟩

lemma mark?_bareLine {raw : List Char} (h : ∀ mark ∈ mark? raw, ∀ key ∈ markKey? mark, Tidy key) :
    mark? (bareLine raw) = (mark? raw).map bareMark := by
  obtain ⟨hsame, hmark⟩ | ⟨row, hmark, hskip, hindent, hread⟩ := bareLine_cases h
  · rw [hsame, hmark]
  · rw [hmark, mark?, if_neg (by simp [hskip]), hindent, hread]
    rfl

def TidyMarks (marks : List Mark) : Prop := ∀ mark ∈ marks, ∀ key ∈ markKey? mark, Tidy key

lemma tidyMarks_iff {marks : List Mark} :
    TidyMarks marks ↔ ∀ key ∈ marks.filterMap markKey?, Tidy key := by
  constructor
  · intro h key hkey
    obtain ⟨mark, hmark, hkey⟩ := List.mem_filterMap.mp hkey
    exact h mark hmark key hkey
  · exact fun h mark hmark key hkey => h key (List.mem_filterMap.mpr ⟨mark, hmark, hkey⟩)

lemma tidy_of_mem_keyChains {marks : List Mark} (h : TidyMarks marks) :
    ∀ keys ∈ keyChains marks, ∀ key ∈ keys, Tidy key := by
  induction marks using keyChains.induct with
  | case1 => simp [keyChains]
  | case2 indent rest ih | case3 indent node rest ih =>
    rw [keyChains]
    exact ih fun mark hm => h mark (List.mem_cons_of_mem _ hm)
  | case4 indent key value rest ih =>
    rw [keyChains]
    intro keys hkeys
    obtain rfl | hkeys := List.mem_cons.mp hkeys
    · simpa using h _ List.mem_cons_self key rfl
    · exact ih (fun mark hm => h mark (List.mem_cons_of_mem _ hm)) keys hkeys
  | case5 indent key rest ihBody ihAfter =>
    have hkey : Tidy key := h _ List.mem_cons_self key rfl
    have hbody : TidyMarks (bodyOf indent rest) := fun mark hm =>
      h mark (List.mem_cons_of_mem _ ((List.takeWhile_prefix _).subset hm))
    have hafter : TidyMarks (afterBody indent rest) := fun mark hm =>
      h mark (List.mem_cons_of_mem _ ((List.dropWhile_suffix _).subset hm))
    rw [keyChains]
    intro keys hkeys
    simp only [List.cons_append, List.mem_cons, List.mem_append, List.mem_map] at hkeys
    obtain rfl | ⟨below, hbelow, rfl⟩ | hkeys := hkeys
    · simpa using hkey
    · exact List.forall_mem_cons.mpr ⟨hkey, ihBody hbody below hbelow⟩
    · exact ihAfter hafter keys hkeys

lemma tidy_of_mem_lines {source : List Char} (h : TidyMarks (marks source)) {raw : List Char}
    (hraw : raw ∈ lines source) : ∀ mark ∈ mark? raw, ∀ key ∈ markKey? mark, Tidy key :=
  fun mark hmark => h mark (List.mem_filterMap.mpr ⟨raw, hraw, hmark⟩)

section

variable {source source' : List Char} (hlines : lines source' = (lines source).map bareLine)
  (htidy : TidyMarks (marks source))
include hlines htidy

lemma marks_bare : marks source' = (marks source).map bareMark := by
  rw [marks, hlines, List.filterMap_map, marks, List.map_filterMap]
  refine List.filterMap_congr fun raw hraw => ?_
  exact mark?_bareLine (tidy_of_mem_lines htidy hraw)

lemma wrongHeader?_bare : Import.wrongHeader? source' = Import.wrongHeader? source := by
  unfold Import.wrongHeader?
  rw [hlines]
  cases hsource : lines source with
  | nil => rfl
  | cons raw rest =>
    have hraw : raw ∈ lines source := hsource ▸ List.mem_cons_self
    obtain ⟨hsame, -⟩ | ⟨row, hmark, hskip, -, -⟩ := bareLine_cases (tidy_of_mem_lines htidy hraw)
    · simp only [List.map_cons, hsame]
    · have hraw' : isSkipped (trim raw) = false := by
        by_contra hnot
        have hnone : mark? raw = none := if_pos (by simpa using hnot)
        rw [hnone] at hmark
        cases hmark
      simp only [List.map_cons, head?_of_not_skipped hskip, head?_of_not_skipped hraw', false_and,
        if_false]

end

lemma flat_marks (source : List Char) : Flat (marks source) := by
  intro mark hmark key value hrow
  obtain ⟨hcontainer, -⟩ := outlined_marks source mark hmark _ hrow
  cases value with
  | mapping => cases hcontainer
  | _ => nofun

lemma isContainer_finish (b : Block) : b.finish.isContainer := by
  obtain ⟨slots, _ | bucket⟩ := b <;> rfl

lemma parse_bare {source source' : List Char} {chains : Chains} (halike : chains.Alike)
    (hlines : lines source' = (lines source).map bareLine) (htidy : TidyMarks (marks source))
    (hchains : ∀ keys ∈ keyChains (marks source), chains keys) :
    (parse source).KeysIn chains ∧ parse source' = (parse source).bare := by
  obtain ⟨hkeys, hbare⟩ := build_bare (b := .empty) halike trivial (flat_marks source) hchains
  rw [parse_eq, parse_eq, marks_bare hlines htidy]
  refine ⟨finish_keysIn _ hkeys, ?_⟩
  have hfinish : (build .empty (marks source)).finish.bare =
      (build .empty (marks source)).bare.finish := finish_bare (build .empty (marks source)).toSlot
  rw [hfinish, hbare]
  rfl

end LayeredConfig.Outline
