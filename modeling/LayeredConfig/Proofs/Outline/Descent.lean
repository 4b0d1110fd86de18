import LayeredConfig.Outline.Reader
import LayeredConfig.Proofs.Fields
import LayeredConfig.Proofs.Success

/-! The stack of open sections reads every document, and reads it by the off-side rule: the section
of a header is built of the lines behind it that stand further in. -/

namespace LayeredConfig.Outline

open Text

abbrev Mark := Nat × Option Row

def mark? (raw : List Char) : Option Mark :=
  if isSkipped (trim raw) then none else some (indentOf raw, Row.read? (trim raw))

def marks (source : List Char) : List Mark := (lines source).filterMap mark?

def bodyOf (indent : Nat) (marks : List Mark) : List Mark := marks.takeWhile (indent < ·.1)

def afterBody (indent : Nat) (marks : List Mark) : List Mark := marks.dropWhile (indent < ·.1)

def build (block : Block) : List Mark → Block
  | [] => block
  | (_, none) :: rest => build block rest
  | (_, some (.item node)) :: rest => build (block.attach node) rest
  | (_, some (.entry key value)) :: rest => build (block.insert key (.value value)) rest
  | (indent, some (.header key)) :: rest =>
    build (block.insert key (build .empty (bodyOf indent rest)).toSlot) (afterBody indent rest)
termination_by marks => marks.length
decreasing_by
  all_goals simp only [List.length_cons]
  any_goals omega
  · exact Nat.lt_succ_of_le (List.takeWhile_prefix _).length_le
  · exact Nat.lt_succ_of_le (List.dropWhile_suffix _).length_le

def Rooted : Frame → List Frame → Prop
  | frame, [] => frame.level = -1
  | frame, outer :: rest => 0 < frame.level ∧ Rooted outer rest

/-- The root when the lines that are still to come are handed out to the open sections: each takes
those up to the first that stands too far out for it. -/
def unwind (frame : Frame) (marks : List Mark) : List Frame → Block
  | [] => build frame.block marks
  | outer :: rest =>
    let inner := build frame.block (marks.takeWhile (frame.level ≤ ·.1))
    unwind (outer.enter { frame with block := inner }) (marks.dropWhile (frame.level ≤ ·.1)) rest

lemma Block.insert_insert (b : Block) (key : String) (old new : Slot) :
    (b.insert key old).insert key new = b.insert key new := by
  simp [Block.insert, Fields.insert_insert]

lemma build_nil (block : Block) : build block [] = block := by
  rw [build]

lemma Rooted.congr {frame other : Frame} {rest : List Frame} (h : Rooted frame rest)
    (hlevel : other.level = frame.level) : Rooted other rest := by
  cases rest with
  | nil => exact hlevel.trans h
  | cons outer rest => exact ⟨hlevel ▸ h.1, h.2⟩

lemma closeFrame_unwind {frame : Frame} {rest : List Frame} (h : Rooted frame rest) (indent : Nat)
    (line : Nat) : ∃ top below, closeFrame indent line frame rest = .ok (top :: below) ∧
      Rooted top below ∧ top.level ≤ indent ∧ ∀ row marks,
        unwind frame ((indent, row) :: marks) rest = unwind top ((indent, row) :: marks) below := by
  induction rest generalizing frame with
  | nil =>
    have hroot : frame.level = -1 := h
    have hlt : ¬ (indent : Int) < frame.level := by omega
    exact ⟨frame, [], by rw [closeFrame, if_neg hlt]; rfl, h, Int.not_lt.mp hlt, fun _ _ => rfl⟩
  | cons outer rest ih =>
    by_cases hlt : (indent : Int) < frame.level
    · have hrooted : Rooted (outer.enter frame) rest := h.2.congr rfl
      obtain ⟨top, below, hclose, htop, hle, hunwind⟩ := ih hrooted
      refine ⟨top, below, by rw [closeFrame, if_pos hlt, hclose], htop, hle, ?_⟩
      intro row marks
      have hdeeper : ¬ frame.level ≤ (indent : Int) := Int.not_le.mpr hlt
      rw [← hunwind, unwind]
      simp [hdeeper, build_nil]
    · exact ⟨frame, outer :: rest, by rw [closeFrame, if_neg hlt]; rfl, h, Int.not_lt.mp hlt,
        fun _ _ => rfl⟩

lemma unwind_cons {frame : Frame} {mark : Mark} (hle : frame.level ≤ mark.1) (block : Block)
    (hbuild : ∀ marks, build frame.block (mark :: marks) = build block marks) (marks : List Mark)
    (rest : List Frame) :
    unwind frame (mark :: marks) rest = unwind { frame with block := block } marks rest := by
  cases rest with
  | nil => exact hbuild marks
  | cons outer rest => simp [unwind, hle, hbuild, Frame.enter]

section

variable {α : Type} {p q : α → Bool} (h : ∀ a, q a → p a)
include h

lemma takeWhile_takeWhile_of_imp (l : List α) : (l.takeWhile p).takeWhile q = l.takeWhile q := by
  rw [List.takeWhile_takeWhile]
  congr 1
  funext a
  rw [Bool.eq_iff_iff, decide_eq_true_eq]
  exact ⟨And.left, fun hq => ⟨hq, h a hq⟩⟩

lemma dropWhile_takeWhile_of_imp (l : List α) :
    (l.takeWhile p).dropWhile q = (l.dropWhile q).takeWhile p := by
  induction l with
  | nil => rfl
  | cons a l ih =>
    by_cases hq : q a
    · simp [hq, h a hq, ih]
    · by_cases hp : p a <;> simp [hq, hp]

lemma dropWhile_dropWhile_of_imp (l : List α) : (l.dropWhile q).dropWhile p = l.dropWhile p := by
  induction l with
  | nil => rfl
  | cons a l ih =>
    by_cases hq : q a
    · simp [hq, h a hq, ih]
    · simp [hq]

end

lemma unwind_header {frame : Frame} {indent : Nat} (hle : frame.level ≤ indent) (key : String)
    (marks : List Mark) (rest : List Frame) :
    unwind frame ((indent, some (.header key)) :: marks) rest =
      unwind (frame.insert key (build .empty (bodyOf indent marks)).toSlot)
        (afterBody indent marks) rest := by
  -- A header is taken by the innermost section together with the lines of its own section.
  cases rest with
  | nil =>
    rw [unwind, build]
    rfl
  | cons outer rest =>
    have himp : ∀ mark : Mark, decide (indent < mark.1) → decide (frame.level ≤ mark.1) := by
      intro mark
      simp only [decide_eq_true_eq]
      omega
    simp only [unwind, List.takeWhile_cons, List.dropWhile_cons, hle, decide_true, if_true, build,
      bodyOf, afterBody, Frame.insert, takeWhile_takeWhile_of_imp himp,
      dropWhile_takeWhile_of_imp himp]
    exact congrArg (unwind _ · rest) (dropWhile_dropWhile_of_imp himp marks).symm

lemma place_unwind {frame : Frame} {rest : List Frame} (h : Rooted frame rest) {indent : Nat}
    (hle : frame.level ≤ indent) (line : Nat) (row : Row) :
    ∃ top below, place indent line row (frame :: rest) = .ok (top :: below) ∧ Rooted top below ∧
      ∀ marks, unwind frame ((indent, some row) :: marks) rest = unwind top marks below := by
  cases row with
  | header key =>
    have hrooted : Rooted ⟨indent + 1, key, .empty⟩ (frame.insert key Block.empty.toSlot :: rest) :=
      ⟨by simp only; omega, h.congr rfl⟩
    refine ⟨_, _, rfl, hrooted, fun marks => ?_⟩
    have hlt : (fun mark : Mark => decide ((indent : Int) + 1 ≤ mark.1)) =
        fun mark => decide (indent < mark.1) := by
      funext mark
      simp only [decide_eq_decide]
      omega
    rw [unwind_header hle, unwind]
    simp only [hlt, Frame.enter, Frame.insert, Block.insert_insert]
    rfl
  | item node =>
    exact ⟨_, _, rfl, h.congr rfl, fun marks =>
      unwind_cons hle _ (fun marks => by rw [build]) marks rest⟩
  | entry key value =>
    exact ⟨_, _, rfl, h.congr rfl, fun marks =>
      unwind_cons hle _ (fun marks => by rw [build]) marks rest⟩

lemma readLine_unwind {frame : Frame} {rest : List Frame} (h : Rooted frame rest) (line : Nat)
    (raw : List Char) :
    ∃ top below, readLine line (frame :: rest) raw = .ok (top :: below) ∧ Rooted top below ∧
      ∀ marks, unwind frame ((mark? raw).toList ++ marks) rest = unwind top marks below := by
  rw [readLine, mark?]
  by_cases hskip : isSkipped (trim raw)
  · exact ⟨frame, rest, by simp only [hskip, if_true]; rfl, h, fun marks => by simp [hskip]⟩
  · obtain ⟨top, below, hclose, hrooted, hle, hunwind⟩ := closeFrame_unwind h (indentOf raw) line
    have hclose : close (indentOf raw) line (frame :: rest) = .ok (top :: below) := hclose
    simp only [hskip, Bool.false_eq_true, if_false, hclose, Option.toList_some, List.singleton_append]
    cases hrow : Row.read? (trim raw) with
    | none =>
      refine ⟨top, below, rfl, hrooted, fun marks => ?_⟩
      rw [hunwind, unwind_cons hle top.block fun marks => by rw [build]]
    | some row =>
      obtain ⟨last, around, hplace, hlast, heq⟩ := place_unwind hrooted hle line row
      exact ⟨last, around, hplace, hlast, fun marks => (hunwind _ marks).trans (heq marks)⟩

lemma readLines_unwind {frame : Frame} {rest : List Frame} (h : Rooted frame rest) (line : Nat)
    (raws : List (List Char)) :
    ∃ top below, readLines line (frame :: rest) raws = .ok (top :: below) ∧ Rooted top below ∧
      ∀ marks, unwind frame (raws.filterMap mark? ++ marks) rest = unwind top marks below := by
  induction raws generalizing frame rest line with
  | nil => exact ⟨frame, rest, rfl, h, fun _ => rfl⟩
  | cons raw raws ih =>
    obtain ⟨top, below, hline, htop, hunwind⟩ := readLine_unwind h line raw
    obtain ⟨last, around, hlines, hlast, hrest⟩ := ih htop (line + 1)
    refine ⟨last, around, by rw [readLines, hline]; exact hlines, hlast, fun marks => ?_⟩
    have hmarks : (raw :: raws).filterMap mark? = (mark? raw).toList ++ raws.filterMap mark? := by
      rw [List.filterMap_cons]
      cases mark? raw <;> rfl
    rw [hmarks, List.append_assoc, hunwind, hrest]

lemma closeFrame_zero {frame : Frame} {rest : List Frame} (h : Rooted frame rest) (line : Nat) :
    ∃ root, closeFrame 0 line frame rest = .ok [root] ∧ unwind frame [] rest = root.block := by
  induction rest generalizing frame with
  | nil =>
    have hroot : frame.level = -1 := h
    have hlt : ¬ (0 : Int) < frame.level := by omega
    exact ⟨frame, by rw [closeFrame, if_neg hlt]; rfl, build_nil _⟩
  | cons outer rest ih =>
    have hrooted : Rooted (outer.enter frame) rest := h.2.congr rfl
    obtain ⟨root, hclose, hunwind⟩ := ih hrooted
    exact ⟨root, by rw [closeFrame, if_pos h.1, hclose], by rw [← hunwind, unwind]; simp [build_nil]⟩

lemma exists_root (source : List Char) :
    ∃ frames root, readLines 1 [.root] (lines source) = .ok frames ∧
      close 0 0 frames = .ok [root] ∧ root.block = build .empty (marks source) := by
  have hroot : Rooted .root [] := rfl
  obtain ⟨top, below, hlines, hrooted, hunwind⟩ := readLines_unwind hroot 1 (lines source)
  obtain ⟨root, hclose, hblock⟩ := closeFrame_zero hrooted 0
  have hmarks := hunwind []
  rw [List.append_nil] at hmarks
  exact ⟨top :: below, root, hlines, hclose, (hmarks.trans hblock).symm⟩

lemma parse_eq (source : List Char) : parse source = (build .empty (marks source)).finish := by
  obtain ⟨frames, root, hlines, hclose, hblock⟩ := exists_root source
  rw [← hblock, parse, parse?, hlines]
  simp only [bind, Except.bind, hclose]
  rfl

lemma parse?_eq_ok (source : List Char) : parse? source = .ok (parse source) := by
  obtain ⟨frames, root, hlines, hclose, -⟩ := exists_root source
  rw [parse, parse?, hlines]
  simp only [bind, Except.bind, hclose]
  rfl

/-- No document underflows, and the tree of a document is the one that its sections make, each
built of the lines that stand further in than its header. -/
theorem parse?_eq_build (source : List Char) :
    parse? source = .ok (build .empty (marks source)).finish := by
  obtain ⟨frames, root, hlines, hclose, hblock⟩ := exists_root source
  rw [← hblock, parse?, hlines]
  simp only [bind, Except.bind, hclose]
  rfl

end LayeredConfig.Outline
