import LayeredConfig.Text.Blank
import LayeredConfig.Text.Pieces
import Mathlib.Data.List.TakeWhile

namespace LayeredConfig.Text

def Blanks (s : List Char) : Prop := ∀ c ∈ s, isBlank c = true

instance : DecidablePred Blanks := fun s => List.decidableBAll (isBlank · = true) s

def Ends (s : List Char) : Prop := ∀ c ∈ s.head?, isBlank c = true

lemma Blanks.ends {s : List Char} (h : Blanks s) : Ends s :=
  fun c hc => h c (List.mem_of_mem_head? hc)

lemma visible_not_blank {c : Char} (hl : 33 ≤ c.toNat) (hu : c.toNat ≤ 126) :
    isBlank c = false := by
  simp [isBlank]
  omega

lemma nameChar_not_blank {c : Char} (h : isNameChar c = true) : isBlank c = false := by
  change ((decide (65 ≤ c.val ∧ c.val ≤ 90) || (decide (97 ≤ c.val) && decide (c.val ≤ 122)) ||
    (decide (48 ≤ c.val) && decide (c.val ≤ 57))) || c == '_') = true at h
  simp only [Bool.or_eq_true, Bool.and_eq_true, decide_eq_true_eq, beq_iff_eq,
    UInt32.le_iff_toNat_le] at h
  rcases h with ((h | h) | h) | rfl
  · exact visible_not_blank (le_trans (by decide) h.1) (le_trans h.2 (by decide))
  · exact visible_not_blank (le_trans (by decide) h.1) (le_trans h.2 (by decide))
  · exact visible_not_blank (le_trans (by decide) h.1) (le_trans h.2 (by decide))
  · rfl

lemma isDigit_not_blank {c : Char} (h : c.isDigit = true) : isBlank c = false :=
  nameChar_not_blank (by simp [isNameChar, Char.isAlphanum, h])

lemma blanks_takeWhile (s : List Char) : Blanks (s.takeWhile isBlank) :=
  fun _ hc => List.mem_takeWhile_imp hc

lemma trimStart_split (s : List Char) : ∃ b, Blanks b ∧ s = b ++ trimStart s :=
  ⟨s.takeWhile isBlank, blanks_takeWhile s, List.takeWhile_append_dropWhile.symm⟩

lemma trimEnd_split (s : List Char) : ∃ b, Blanks b ∧ s = trimEnd s ++ b := by
  obtain ⟨b, hb, he⟩ := trimStart_split s.reverse
  refine ⟨b.reverse, fun c hc => hb c (List.mem_reverse.mp hc), ?_⟩
  rw [trimEnd, ← List.reverse_append]
  exact (List.reverse_reverse s).symm.trans (congrArg List.reverse he)

lemma trim_split_lead (s : List Char) :
    ∃ c, Blanks c ∧ s = s.takeWhile isBlank ++ trim s ++ c := by
  obtain ⟨c, hc, hsplit⟩ := trimEnd_split (trimStart s)
  refine ⟨c, hc, ?_⟩
  rw [List.append_assoc, trim, ← hsplit]
  exact List.takeWhile_append_dropWhile.symm

lemma trim_split (s : List Char) :
    ∃ b c, Blanks b ∧ Blanks c ∧ s = b ++ trim s ++ c := by
  obtain ⟨c, hc, hsplit⟩ := trim_split_lead s
  exact ⟨s.takeWhile isBlank, c, blanks_takeWhile s, hc, hsplit⟩

lemma dropStart?_eq_some {start s rest : List Char} :
    dropStart? start s = some rest ↔ s = start ++ rest := by
  induction start generalizing s with
  | nil => simp [dropStart?]
  | cons c start ih =>
    cases s with
    | nil => simp [dropStart?]
    | cons d s =>
      by_cases h : c = d
      · simp [dropStart?, h, ih]
      · simp [dropStart?, h, Ne.symm h]

lemma dropEnd?_eq_some {finish s rest : List Char} :
    dropEnd? finish s = some rest ↔ s = rest ++ finish := by
  simp only [dropEnd?, Option.map_eq_some_iff, dropStart?_eq_some]
  constructor
  · rintro ⟨reversed, hs, rfl⟩
    rw [← List.reverse_reverse s, hs]
    simp
  · rintro rfl
    exact ⟨rest.reverse, by simp, by simp⟩

section

variable {p : Char → Bool} {b : List Char} (hb : ∀ c ∈ b.head?, p c = false)
include hb

lemma takeWhile_append_of_not (s : List Char) : (s ++ b).takeWhile p = s.takeWhile p := by
  induction s with
  | nil =>
    cases b with
    | nil => rfl
    | cons c b => simp [hb c rfl]
  | cons c s ih => cases h : p c <;> simp [h, ih]

lemma dropWhile_append_of_not (s : List Char) : (s ++ b).dropWhile p = s.dropWhile p ++ b := by
  induction s with
  | nil =>
    cases b with
    | nil => rfl
    | cons c b => simp [hb c rfl]
  | cons c s ih => cases h : p c <;> simp [h, ih]

end

lemma takeWhile_append_cons_of_neg {p : Char → Bool} {c : Char} (hc : p c = false)
    (s t : List Char) : (s ++ c :: t).takeWhile p = s.takeWhile p :=
  takeWhile_append_of_not (by rintro _ ⟨⟩; exact hc) s

structure Trimmed (s : List Char) : Prop where
  first : ∀ c ∈ s.head?, isBlank c = false
  last : ∀ c ∈ s.getLast?, isBlank c = false

lemma trimmed_of_all {s : List Char} (h : ∀ c ∈ s, isBlank c = false) : Trimmed s :=
  ⟨fun c hc => h c (List.mem_of_mem_head? hc), fun c hc => h c (List.mem_of_getLast? hc)⟩

lemma trimmed_trim (s : List Char) : Trimmed (trim s) := by
  constructor
  · intro c hc
    obtain ⟨b, -, hsplit⟩ := trimEnd_split (trimStart s)
    have hhead : (trimStart s).head? = some c := by
      rw [hsplit, List.head?_append]
      exact Option.or_eq_some_iff.mpr (.inl hc)
    have hnot := List.head?_dropWhile_not isBlank s
    simpa [show s.dropWhile isBlank = trimStart s from rfl, hhead] using hnot
  · intro c hc
    have hnot := List.head?_dropWhile_not isBlank (trimStart s).reverse
    rw [trim, trimEnd, List.getLast?_reverse] at hc
    rw [Option.mem_def.mp hc] at hnot
    simpa using hnot

lemma trimStart_of_first {s : List Char} (h : ∀ c ∈ s.head?, isBlank c = false) :
    trimStart s = s := by
  cases s with
  | nil => rfl
  | cons c rest => exact List.dropWhile_cons_of_neg (by simp [h c rfl])

lemma trimEnd_append {s b : List Char} (h : ∀ c ∈ s.getLast?, isBlank c = false)
    (hb : Blanks b) : trimEnd (s ++ b) = s := by
  have hreversed : ∀ c ∈ b.reverse, isBlank c = true := fun c hc => hb c (List.mem_reverse.mp hc)
  have hfirst : ∀ c ∈ s.reverse.head?, isBlank c = false := by
    rw [List.head?_reverse]
    exact h
  rw [trimEnd, List.reverse_append, List.dropWhile_append_of_pos hreversed]
  change (trimStart s.reverse).reverse = s
  rw [trimStart_of_first hfirst, List.reverse_reverse]

lemma trim_append {b s c : List Char} (hb : Blanks b) (hs : Trimmed s) (hne : s ≠ [])
    (hc : Blanks c) : trim (b ++ s ++ c) = s := by
  have hfirst : ∀ d ∈ (s ++ c).head?, isBlank d = false := by
    obtain ⟨d, rest, rfl⟩ := List.exists_cons_of_ne_nil hne
    exact hs.first
  have hstart : trimStart (b ++ (s ++ c)) = trimStart (s ++ c) := List.dropWhile_append_of_pos hb
  rw [trim, List.append_assoc, hstart, trimStart_of_first hfirst, trimEnd_append hs.last hc]

lemma trim_of_trimmed {s : List Char} (h : Trimmed s) : trim s = s := by
  by_cases hs : s = []
  · rw [hs]
    rfl
  · have hnone : Blanks [] := fun _ hc => absurd hc List.not_mem_nil
    simpa using trim_append hnone h hs hnone

lemma trimmed_of_trim {s : List Char} (h : trim s = s) : Trimmed s := h ▸ trimmed_trim s

lemma trim_blanks_append {b : List Char} (hb : Blanks b) (s : List Char) : trim (b ++ s) = trim s :=
  congrArg trimEnd (List.dropWhile_append_of_pos hb)

lemma trim_blank_cons {s : List Char} (h : Trimmed s) : trim (' ' :: s) = s := by
  have hblank : Blanks [' '] := by
    intro c hc
    obtain rfl := List.mem_singleton.mp hc
    rfl
  exact (trim_blanks_append hblank s).trans (trim_of_trimmed h)

lemma trim_of_blanks {s : List Char} (h : Blanks s) : trim s = [] := by
  have hrest := trim_blanks_append h []
  rwa [List.append_nil] at hrest

lemma trim_append_blanks {b : List Char} (hb : Blanks b) (s : List Char) :
    trim (s ++ b) = trim s := by
  obtain ⟨lead, rest, hlead, hrest, hsplit⟩ := trim_split s
  have hback : Blanks (rest ++ b) := fun c hc => (List.mem_append.mp hc).elim (hrest c) (hb c)
  by_cases hne : trim s = []
  · rw [hne, List.append_nil] at hsplit
    rw [hne, hsplit, List.append_assoc, trim_blanks_append hlead, trim_of_blanks hback]
  · rw [hsplit, List.append_assoc, trim_append hlead (trimmed_trim s) hne hback, ← hsplit]

end LayeredConfig.Text
