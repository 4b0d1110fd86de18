import LayeredConfig.Proofs.Outline.BareLine
import Mathlib

/-! The layout of a document does not show in its tree: neither the lines that are skipped, nor what
stands at the ends of lines, nor how the places in front of them are filled, nor how many there are
as long as deeper lines stay deeper. -/

namespace LayeredConfig.Outline

open Text

def isPlace (c : Char) : Bool := c == ' ' || c == '\t'

def Places (s : List Char) : Prop := ∀ c ∈ s, isPlace c = true

instance : DecidablePred Places := fun s => List.decidableBAll (isPlace · = true) s

def moveTo (indent : Nat) (raw : List Char) : List Char :=
  List.replicate indent ' ' ++ raw.dropWhile isPlace

/-- One change of layout, in a text that is given by its lines. -/
inductive Relayout : List (List Char) → List (List Char) → Prop
  | skipped (before after : List (List Char)) {line : List Char} (h : isSkipped (trim line) = true) :
    Relayout (before ++ after) (before ++ line :: after)
  | ending (before after : List (List Char)) (line : List Char) {tail : List Char}
    (h : Blanks tail) : Relayout (before ++ line :: after) (before ++ (line ++ tail) :: after)
  | filling (before after : List (List Char)) (rest : List Char) {lead other : List Char}
    (hlead : Places lead) (hother : Places other) (hlength : lead.length = other.length) :
    Relayout (before ++ (lead ++ rest) :: after) (before ++ (other ++ rest) :: after)
  | stretching (lines : List (List Char)) {f : Nat → Nat} (hf : StrictMono f) :
    Relayout lines (lines.map fun raw => moveTo (f (indentOf raw)) raw)

lemma Places.blanks {s : List Char} (h : Places s) : Blanks s := by
  intro c hc
  have hplace := h c hc
  rw [isPlace, Bool.or_eq_true, beq_iff_eq, beq_iff_eq] at hplace
  obtain rfl | rfl := hplace
  · rfl
  · rfl

lemma places_takeWhile (raw : List Char) : Places (raw.takeWhile isPlace) :=
  fun _ hc => List.mem_takeWhile_imp hc

lemma places_replicate (n : Nat) : Places (List.replicate n ' ') := by
  intro c hc
  obtain rfl := List.eq_of_mem_replicate hc
  rfl

lemma indentOf_places {lead : List Char} (h : Places lead) (rest : List Char) :
    indentOf (lead ++ rest) = lead.length + indentOf rest := by
  have htake : (lead ++ rest).takeWhile isPlace = lead ++ rest.takeWhile isPlace :=
    List.takeWhile_append_of_pos h
  exact (congrArg List.length htake).trans List.length_append

lemma indentOf_moveTo (indent : Nat) (raw : List Char) : indentOf (moveTo indent raw) = indent := by
  have hsplit := indentOf_places (places_takeWhile raw) (raw.dropWhile isPlace)
  rw [List.takeWhile_append_dropWhile] at hsplit
  have hwhole : indentOf raw = (raw.takeWhile isPlace).length := rfl
  rw [moveTo, indentOf_places (places_replicate indent), List.length_replicate]
  omega

lemma trim_moveTo (indent : Nat) (raw : List Char) : trim (moveTo indent raw) = trim raw := by
  rw [moveTo, trim_blanks_append (places_replicate indent).blanks,
    ← trim_blanks_append (places_takeWhile raw).blanks, List.takeWhile_append_dropWhile]

lemma indentOf_append_of_text {raw : List Char} (h : trim raw ≠ []) (tail : List Char) :
    indentOf (raw ++ tail) = indentOf raw := by
  obtain ⟨lead, rest, -, -, hsplit⟩ := trim_split raw
  have hfirst := (trimmed_trim raw).first
  rw [hsplit, List.append_assoc, indentOf_append h hfirst, indentOf_append h hfirst]

lemma mark?_congr {raw other : List Char} (htext : trim raw = trim other)
    (hindent : trim raw ≠ [] → indentOf raw = indentOf other) : mark? raw = mark? other := by
  rw [mark?, mark?, ← htext]
  by_cases hskip : isSkipped (trim raw) = true
  · rw [if_pos hskip, if_pos hskip]
  · have hne : trim raw ≠ [] := by
      intro hnil
      rw [hnil] at hskip
      exact hskip rfl
    rw [hindent hne]

lemma mark?_ending (line : List Char) {tail : List Char} (h : Blanks tail) :
    mark? (line ++ tail) = mark? line := by
  apply mark?_congr
  · exact trim_append_blanks h line
  · intro hne
    rw [trim_append_blanks h] at hne
    exact indentOf_append_of_text hne tail

lemma mark?_filling (rest : List Char) {lead other : List Char} (hlead : Places lead)
    (hother : Places other) (hlength : lead.length = other.length) :
    mark? (lead ++ rest) = mark? (other ++ rest) := by
  apply mark?_congr
  · rw [trim_blanks_append hlead.blanks, trim_blanks_append hother.blanks]
  · intro _
    rw [indentOf_places hlead, indentOf_places hother, hlength]

def stretch (f : Nat → Nat) (mark : Mark) : Mark := (f mark.1, mark.2)

lemma mark?_moveTo (f : Nat → Nat) (raw : List Char) :
    mark? (moveTo (f (indentOf raw)) raw) = (mark? raw).map (stretch f) := by
  rw [mark?, mark?, trim_moveTo, indentOf_moveTo]
  split <;> rfl

section

variable {f : Nat → Nat} (hf : StrictMono f)
include hf

lemma deeper_stretch (indent : Nat) :
    (fun mark : Mark => decide (f indent < mark.1)) ∘ stretch f =
      fun mark => decide (indent < mark.1) := by
  funext mark
  simp only [Function.comp_apply, stretch, hf.lt_iff_lt]

lemma bodyOf_stretch (indent : Nat) (marks : List Mark) :
    bodyOf (f indent) (marks.map (stretch f)) = (bodyOf indent marks).map (stretch f) := by
  rw [bodyOf, List.takeWhile_map, deeper_stretch hf]
  rfl

lemma afterBody_stretch (indent : Nat) (marks : List Mark) :
    afterBody (f indent) (marks.map (stretch f)) = (afterBody indent marks).map (stretch f) := by
  rw [afterBody, List.dropWhile_map, deeper_stretch hf]
  rfl

lemma build_stretch (b : Block) (marks : List Mark) :
    build b (marks.map (stretch f)) = build b marks := by
  -- Sections compare indentations and do nothing else with them.
  induction b, marks using build.induct with
  | case1 b => rfl
  | case2 b indent rest ih =>
    simp only [List.map_cons, stretch, build]
    exact ih
  | case3 b indent node rest ih =>
    simp only [List.map_cons, stretch, build]
    exact ih
  | case4 b indent key value rest ih =>
    simp only [List.map_cons, stretch, build]
    exact ih
  | case5 b indent key rest ihBody ihAfter =>
    rw [List.map_cons, stretch, build, build, bodyOf_stretch hf, afterBody_stretch hf, ihBody,
      ihAfter]

end

def buildLines (lines : List (List Char)) : Block := build .empty (lines.filterMap mark?)

lemma Relayout.buildLines_eq {lines others : List (List Char)} (h : Relayout lines others) :
    buildLines lines = buildLines others := by
  cases h with
  | @skipped before after line h =>
    have hnone : mark? line = none := if_pos h
    simp only [buildLines, List.filterMap_append, List.filterMap_cons, hnone]
  | ending before after line h =>
    simp only [buildLines, List.filterMap_append, List.filterMap_cons, mark?_ending line h]
  | filling before after rest hlead hother hlength =>
    simp only [buildLines, List.filterMap_append, List.filterMap_cons,
      mark?_filling rest hlead hother hlength]
  | @stretching lines f hf =>
    have hmarks : (lines.map fun raw => moveTo (f (indentOf raw)) raw).filterMap mark? =
        (lines.filterMap mark?).map (stretch f) := by
      rw [List.filterMap_map, List.map_filterMap]
      exact congrArg (List.filterMap · lines) (funext (mark?_moveTo f))
    rw [buildLines, buildLines, hmarks, build_stretch hf]

lemma parse?_eq_buildLines (source : List Char) :
    parse? source = .ok (buildLines (lines source)).finish := by
  rw [parse?_eq_ok, parse_eq]
  rfl

/-- Texts have the same tree when changes of layout lead from the lines of one to those of the
other, forwards or backwards. -/
theorem parse?_of_relayout {source other : List Char}
    (h : Relation.EqvGen Relayout (lines source) (lines other)) : parse? source = parse? other := by
  have hbuild : buildLines (lines source) = buildLines (lines other) := by
    generalize lines source = first at h
    generalize lines other = last at h
    induction h with
    | rel first last h => exact h.buildLines_eq
    | refl first => rfl
    | symm first last _ ih => exact ih.symm
    | trans first between last _ _ ih ih' => exact ih.trans ih'
  rw [parse?_eq_buildLines, parse?_eq_buildLines, hbuild]

def narrowText : String := "a:\n# gone\n  - x\nb: 2\n"

def wideText : String := " a: \t\n   ---\n\t\t\t\t\t\t\t- x\n b: 2\n"

theorem parse?_of_relayout_sections :
    Relation.EqvGen Relayout (lines narrowText.toList) (lines wideText.toList) ∧
    parse? narrowText.toList = parse? wideText.toList ∧
    parse? wideText.toList = .ok (.mapping [("a", .sequence [.string "x"]), ("b", .int 2)]) := by
  have hremoved : Relayout (["a:", "  - x", "b: 2"].map String.toList) (lines narrowText.toList) :=
    .skipped ["a:".toList] (["  - x", "b: 2"].map String.toList) rfl
  have hstretched : Relayout (["a:", "  - x", "b: 2"].map String.toList)
      ([" a:", "       - x", " b: 2"].map String.toList) := by
    have hf : StrictMono fun n => 3 * n + 1 := fun _ _ h => by dsimp only; omega
    exact .stretching _ hf
  have hadded : Relayout ([" a:", "       - x", " b: 2"].map String.toList)
      ([" a:", "   ---", "       - x", " b: 2"].map String.toList) :=
    .skipped [" a:".toList] _ rfl
  have hending : Relayout ([" a:", "   ---", "       - x", " b: 2"].map String.toList)
      ([" a: \t", "   ---", "       - x", " b: 2"].map String.toList) := by
    have htail : Blanks [' ', '\t'] := by decide
    exact .ending [] _ " a:".toList htail
  have hfilling : Relayout ([" a: \t", "   ---", "       - x", " b: 2"].map String.toList)
      (lines wideText.toList) := by
    have hlead : Places (List.replicate 7 ' ') := by decide
    have hother : Places (List.replicate 7 '\t') := by decide
    exact .filling ([" a: \t", "   ---"].map String.toList) [" b: 2".toList] "- x".toList hlead
      hother rfl
  have h : Relation.EqvGen Relayout (lines narrowText.toList) (lines wideText.toList) :=
    .trans _ _ _ (.symm _ _ (.rel _ _ hremoved)) <| .trans _ _ _ (.rel _ _ hstretched) <|
      .trans _ _ _ (.rel _ _ hadded) <| .trans _ _ _ (.rel _ _ hending) (.rel _ _ hfilling)
  exact ⟨h, parse?_of_relayout h, by cbv⟩

end LayeredConfig.Outline
