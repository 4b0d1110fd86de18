import LayeredConfig.Import.HeaderLine
import LayeredConfig.Proofs.Text.Splitting
import LayeredConfig.Proofs.Text.Trimming

namespace LayeredConfig.Import

open Text

structure IsDigits (s : List Char) : Prop where
  nonempty : s ≠ []
  digits : ∀ c ∈ s, c.isDigit = true

structure IsBlanks (s : List Char) : Prop where
  nonempty : s ≠ []
  blanks : Blanks s

def IsHeaderLine (line : List Char) : Prop :=
  ∃ gap major minor, line = "%WAFL".toList ++ gap ++ (major ++ '.' :: minor) ∧
    IsBlanks gap ∧ IsDigits major ∧ IsDigits minor

lemma isNumeral_iff {s : List Char} : isNumeral s = true ↔ IsDigits s := by
  rw [isNumeral, Bool.and_eq_true, List.all_eq_true, Bool.not_eq_true', List.isEmpty_eq_false_iff]
  exact ⟨fun ⟨hne, hall⟩ => ⟨hne, hall⟩, fun ⟨hne, hall⟩ => ⟨hne, hall⟩⟩

lemma point_not_digit {s : List Char} (h : IsDigits s) : ∀ c ∈ s, (c == '.') = false := by
  intro c hc
  rw [beq_eq_false_iff_ne]
  rintro rfl
  exact absurd (h.digits '.' hc) (by decide)

lemma isVersion_iff {s : List Char} : isVersion s = true ↔
    ∃ major minor, s = major ++ '.' :: minor ∧ IsDigits major ∧ IsDigits minor := by
  rw [isVersion]
  constructor
  · intro h
    split at h
    case h_1 major mark minor hcut =>
      obtain ⟨rfl, hmark, -⟩ := cut_eq_some.mp hcut
      obtain rfl : mark = '.' := by simpa using hmark
      obtain ⟨hmajor, hminor⟩ := Bool.and_eq_true_iff.mp h
      exact ⟨major, minor, rfl, isNumeral_iff.mp hmajor, isNumeral_iff.mp hminor⟩
    case h_2 => cases h
  · rintro ⟨major, minor, rfl, hmajor, hminor⟩
    have hcut : cut (· == '.') (major ++ '.' :: minor) = some (major, '.', minor) :=
      cut_eq_some.mpr ⟨rfl, rfl, point_not_digit hmajor⟩
    rw [hcut]
    exact Bool.and_eq_true_iff.mpr ⟨isNumeral_iff.mpr hmajor, isNumeral_iff.mpr hminor⟩

lemma startsBlank_iff {s : List Char} : startsBlank s = true ↔ ∃ c ∈ s.head?, isBlank c = true := by
  cases s <;> simp [startsBlank]

lemma trimmed_version {major minor : List Char} (hmajor : IsDigits major)
    (hminor : IsDigits minor) : Trimmed (major ++ '.' :: minor) := by
  apply trimmed_of_all
  rw [List.forall_mem_append, List.forall_mem_cons]
  exact ⟨fun c hc => isDigit_not_blank (hmajor.digits c hc), by decide,
    fun c hc => isDigit_not_blank (hminor.digits c hc)⟩

lemma isHeader_eq_true_iff {line : List Char} : isHeader line = true ↔
    ∃ rest, line = "%WAFL".toList ++ rest ∧ startsBlank rest = true ∧
      isVersion (trim rest) = true := by
  rw [isHeader]
  constructor
  · intro h
    split at h
    case h_1 rest hstart =>
      exact ⟨rest, dropStart?_eq_some.mp hstart, Bool.and_eq_true_iff.mp h⟩
    case h_2 => cases h
  · rintro ⟨rest, rfl, h⟩
    rw [dropStart?_eq_some.mpr rfl]
    exact Bool.and_eq_true_iff.mpr h

lemma eq_nil_of_blanks {s after : List Char} (hafter : Blanks after)
    (hlast : ∀ c ∈ (s ++ after).getLast?, isBlank c = false) : after = [] := by
  obtain hnil | ⟨front, c, rfl⟩ := List.eq_nil_or_concat' after
  · exact hnil
  · have hnot : isBlank c = false := by
      apply hlast
      rw [← List.append_assoc, List.getLast?_concat, Option.mem_some]
    rw [hafter c (List.mem_append_right _ List.mem_cons_self)] at hnot
    cases hnot

lemma startsBlank_and_isVersion_iff {rest : List Char}
    (hlast : ∀ c ∈ rest.getLast?, isBlank c = false) :
    startsBlank rest = true ∧ isVersion (trim rest) = true ↔
      ∃ gap major minor, rest = gap ++ (major ++ '.' :: minor) ∧ IsBlanks gap ∧ IsDigits major ∧
        IsDigits minor := by
  constructor
  · rintro ⟨hblank, hversion⟩
    obtain ⟨major, minor, htrim, hmajor, hminor⟩ := isVersion_iff.mp hversion
    obtain ⟨gap, after, hgap, hafter, hrest⟩ := trim_split rest
    rw [hrest] at hlast
    obtain rfl := eq_nil_of_blanks hafter hlast
    rw [htrim, List.append_nil] at hrest
    refine ⟨gap, major, minor, hrest, ⟨?_, hgap⟩, hmajor, hminor⟩
    rintro rfl
    obtain ⟨d, digits, rfl⟩ := List.exists_cons_of_ne_nil hmajor.nonempty
    obtain ⟨c, hc, hblank⟩ := startsBlank_iff.mp hblank
    obtain rfl : d = c := by simpa [hrest] using hc
    rw [isDigit_not_blank (hmajor.digits d List.mem_cons_self)] at hblank
    cases hblank
  · rintro ⟨gap, major, minor, rfl, hgap, hmajor, hminor⟩
    constructor
    · obtain ⟨c, rest, rfl⟩ := List.exists_cons_of_ne_nil hgap.nonempty
      exact startsBlank_iff.mpr ⟨c, rfl, hgap.blanks c List.mem_cons_self⟩
    · have htrim := trim_append hgap.blanks (trimmed_version hmajor hminor) (by simp)
        (fun c hc => absurd hc List.not_mem_nil : Blanks [])
      rw [List.append_nil] at htrim
      rw [htrim]
      exact isVersion_iff.mpr ⟨major, minor, rfl, hmajor, hminor⟩

lemma isHeader_iff {line : List Char} (hlast : ∀ c ∈ line.getLast?, isBlank c = false) :
    isHeader line = true ↔ IsHeaderLine line := by
  have hrest : ∀ {rest : List Char}, line = "%WAFL".toList ++ rest →
      ∀ c ∈ rest.getLast?, isBlank c = false := by
    rintro rest rfl c hc
    apply hlast
    rw [List.getLast?_append, Option.mem_def.mp hc, Option.some_or, Option.mem_some]
  rw [isHeader_eq_true_iff]
  constructor
  · rintro ⟨rest, hline, h⟩
    obtain ⟨gap, major, minor, rfl, hparts⟩ := (startsBlank_and_isVersion_iff (hrest hline)).mp h
    exact ⟨gap, major, minor, hline.trans (List.append_assoc ..).symm, hparts⟩
  · rintro ⟨gap, major, minor, hline, hparts⟩
    rw [List.append_assoc] at hline
    refine ⟨_, hline, (startsBlank_and_isVersion_iff (hrest hline)).mpr ?_⟩
    exact ⟨gap, major, minor, rfl, hparts⟩

def firstLine (source : List Char) : List Char := trim ((lines source).headD [])

def HeaderFits (line : List Char) : Prop := line.head? ≠ some '%' ∨ IsHeaderLine line

lemma wrongHeader?_eq_some {source header : List Char} :
    wrongHeader? source = some header ↔
      header = firstLine source ∧ ¬ HeaderFits header := by
  rw [wrongHeader?, firstLine]
  cases lines source with
  | nil =>
    constructor
    · intro h
      cases h
    · rintro ⟨rfl, hnot⟩
      exact absurd (.inl (by simp [trim, trimStart, trimEnd])) hnot
  | cons raw rest =>
    have hfits : HeaderFits (trim raw) ↔ ¬ ((trim raw).head? = some '%' ∧ !isHeader (trim raw)) := by
      rw [HeaderFits, ← isHeader_iff (trimmed_trim raw).last]
      cases isHeader (trim raw) <;> simp
    dsimp only [List.headD_cons]
    constructor
    · intro h
      split at h
      case isTrue hwrong =>
        cases h
        exact ⟨rfl, fun hfit => hfits.mp hfit hwrong⟩
      case isFalse => cases h
    · rintro ⟨rfl, hnot⟩
      rw [if_pos (not_not.mp (mt hfits.mpr hnot))]

end LayeredConfig.Import
