import LayeredConfig.Text.Pieces
import Mathlib.Data.List.Basic

namespace LayeredConfig.Text

lemma consFirst_of_ne_nil {c : Char} {parts : List (List Char)} (h : parts ≠ []) :
    consFirst c parts = parts.modifyHead (c :: ·) := by
  cases parts with
  | nil => exact absurd rfl h
  | cons part rest => rfl

lemma lines_append_cons {line : List Char} (hsolid : '\n' ∉ line)
    (hlast : line.getLast? ≠ some '\r') (rest : List Char) :
    lines (line ++ '\n' :: rest) = line :: lines rest := by
  induction line with
  | nil => rfl
  | cons c line ih =>
    obtain ⟨hc, hline⟩ := not_or.mp (mt List.mem_cons.mpr hsolid)
    cases line with
    | nil =>
      have hreturn : c ≠ '\r' := fun h => hlast (congrArg some h)
      rw [List.singleton_append, lines, lines]
      · rfl
      · exact fun h => hc h.symm
      · exact fun _ h => absurd h hreturn
    | cons d line =>
      have hd : d ≠ '\n' := fun h => hline (h ▸ List.mem_cons_self)
      have hrest := ih hline (by rwa [List.getLast?_cons_cons] at hlast)
      rw [List.cons_append, lines, hrest]
      · rfl
      · exact fun h => hc h.symm
      · intro _ _ h
        exact hd (List.cons.inj h).1

lemma pieces_eq_splitOn (separator : Char) (s : List Char) :
    pieces separator s = s.splitOn separator := by
  induction s with
  | nil => rfl
  | cons c rest ih =>
    have hne : rest.splitOn separator ≠ [] := List.splitOn_ne_nil separator rest
    rw [pieces, List.splitOn_cons_eq_if_modifyHead, ih, consFirst_of_ne_nil hne]
    simp only [beq_iff_eq]

lemma pieces_append_cons (separator : Char) (s t : List Char) :
    pieces separator (s ++ separator :: t) = pieces separator s ++ pieces separator t := by
  simp only [pieces_eq_splitOn, List.splitOn_append_cons_self]

lemma pieces_of_not_mem {separator : Char} {s : List Char} (h : separator ∉ s) :
    pieces separator s = [s] := by
  rw [pieces_eq_splitOn, List.splitOn_eq_singleton h]

lemma pieces_ne_nil (separator : Char) (s : List Char) : pieces separator s ≠ [] := by
  rw [pieces_eq_splitOn]
  exact List.splitOn_ne_nil separator s

lemma not_mem_of_mem_pieces {separator : Char} {s piece : List Char}
    (h : piece ∈ pieces separator s) : separator ∉ piece := by
  induction s generalizing piece with
  | nil =>
    obtain rfl := List.mem_singleton.mp h
    exact List.not_mem_nil
  | cons c rest ih =>
    rw [pieces] at h
    split at h
    · obtain rfl | h := List.mem_cons.mp h
      · exact List.not_mem_nil
      · exact ih h
    · rename_i hc
      obtain ⟨first, others, hparts⟩ := List.exists_cons_of_ne_nil (pieces_ne_nil separator rest)
      rw [hparts] at h ih
      obtain rfl | h := List.mem_cons.mp h
      · have hfirst : separator ∉ first := ih List.mem_cons_self
        exact List.not_mem_cons_of_ne_of_not_mem (Ne.symm hc) hfirst
      · exact ih (List.mem_cons_of_mem _ h)

lemma cut_eq_some {p : Char → Bool} {s before after : List Char} {mark : Char} :
    cut p s = some (before, mark, after) ↔
      s = before ++ mark :: after ∧ p mark ∧ ∀ c ∈ before, p c = false := by
  induction s generalizing before with
  | nil => simp [cut]
  | cons c rest ih =>
    rw [cut]
    cases hc : p c with
    | true =>
      simp only [if_true, Option.some.injEq, Prod.mk.injEq]
      constructor
      · rintro ⟨rfl, rfl, rfl⟩
        simp [hc]
      · rintro ⟨hs, hm, hbefore⟩
        cases before with
        | nil =>
          obtain ⟨rfl, rfl⟩ := List.cons.inj hs
          exact ⟨rfl, rfl, rfl⟩
        | cons d before =>
          obtain ⟨rfl, -⟩ := List.cons.inj hs
          simp [hc] at hbefore
    | false =>
      simp only [Bool.false_eq_true, if_false, Option.map_eq_some_iff, Prod.mk.injEq, Prod.exists]
      constructor
      · rintro ⟨first, m, others, hcut, rfl, rfl, rfl⟩
        obtain ⟨rfl, hm, hfirst⟩ := ih.mp hcut
        exact ⟨rfl, hm, by simpa [hc] using hfirst⟩
      · rintro ⟨hs, hm, hbefore⟩
        cases before with
        | nil =>
          obtain ⟨rfl, -⟩ := List.cons.inj hs
          simp [hc] at hm
        | cons d before =>
          obtain ⟨rfl, rfl⟩ := List.cons.inj hs
          have hrest : ∀ c ∈ before, p c = false :=
            fun c hm => hbefore c (List.mem_cons_of_mem _ hm)
          exact ⟨before, mark, after, ih.mpr ⟨rfl, hm, hrest⟩, rfl, rfl, rfl⟩

lemma cutLast_eq_some {p : Char → Bool} {s before after : List Char} {mark : Char} :
    cutLast p s = some (before, mark, after) ↔
      s = before ++ mark :: after ∧ p mark ∧ ∀ c ∈ after, p c = false := by
  simp only [cutLast, Option.map_eq_some_iff, Prod.mk.injEq, Prod.exists]
  constructor
  · rintro ⟨first, m, others, hcut, rfl, rfl, rfl⟩
    obtain ⟨hs, hm, hfirst⟩ := cut_eq_some.mp hcut
    refine ⟨?_, hm, fun c hc => hfirst c (List.mem_reverse.mp hc)⟩
    rw [← List.reverse_reverse s, hs]
    simp
  · rintro ⟨rfl, hm, hafter⟩
    refine ⟨after.reverse, mark, before.reverse, cut_eq_some.mpr ⟨by simp, hm, ?_⟩, ?_⟩
    · exact fun c hc => hafter c (List.mem_reverse.mp hc)
    · simp

end LayeredConfig.Text
