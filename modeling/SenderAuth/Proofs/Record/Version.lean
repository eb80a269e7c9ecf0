import Mathlib.Data.List.Basic
import Mathlib.Tactic.TFAE
import SenderAuth.Proofs.Record.Messages

/-!
What makes a text an SPF record. To be selected among the strings of a domain and to be read with its
version understood are both matters of the first word and of what stands behind it. The two come apart
only where white space outside ASCII's stands right behind a version tag.
-/
namespace SenderAuth.Spf
open Text

/-- The first word of a text, empty where there is none. -/
def firstWord (cs : List Char) : List Char := (trimStart cs).takeWhile (!isBlank ·)

def behindFirstWord (cs : List Char) : List Char := (trimStart cs).dropWhile (!isBlank ·)

theorem firstWord_append_behindFirstWord (cs : List Char) :
    firstWord cs ++ behindFirstWord cs = trimStart cs :=
  List.takeWhile_append_dropWhile

theorem isBlank_of_mem_firstWord {cs : List Char} : ∀ c ∈ firstWord cs, isBlank c = false := by
  intro c hc
  simpa using List.all_eq_true.1 List.all_takeWhile c hc

theorem isBlank_of_mem_head?_behindFirstWord {cs : List Char} :
    ∀ c ∈ (behindFirstWord cs).head?, isBlank c = true := by
  intro c hc
  have hnot := List.head?_dropWhile_not (!isBlank ·) (trimStart cs)
  rw [behindFirstWord, Option.mem_def] at hc
  simpa [hc] using hnot

theorem trimStart_eq_nil_of_firstWord_eq_nil {cs : List Char} (h : firstWord cs = []) :
    trimStart cs = [] := by
  cases hstart : trimStart cs with
  | nil => rfl
  | cons c rest =>
    have hhead : c ∈ (trimStart cs).head? := by rw [hstart]; rfl
    have hc : isBlank c = false := isBlank_of_mem_head?_trimStart hhead
    simp [firstWord, hstart, hc] at h

theorem head?_words_eq_some_iff {cs w : List Char} :
    (words cs).head? = some w ↔ firstWord cs = w ∧ w ≠ [] := by
  by_cases hne : firstWord cs = []
  · rw [← words_trimStart, trimStart_eq_nil_of_firstWord_eq_nil hne, hne]
    simp [eq_comm]
  · have hwords : words cs = firstWord cs :: words (behindFirstWord cs) := by
      rw [← words_trimStart, ← firstWord_append_behindFirstWord]
      exact words_append_of_no_blank hne isBlank_of_mem_firstWord
        isBlank_of_mem_head?_behindFirstWord
    rw [hwords, List.head?_cons, Option.some.injEq]
    exact ⟨fun h => ⟨h, h ▸ hne⟩, And.left⟩

/-- A text is cut in one way only into a word and a rest that does not go on with it. -/
theorem eq_of_word_append_eq {w w' rest rest' : List Char} (hw : ∀ c ∈ w, isBlank c = false)
    (hw' : ∀ c ∈ w', isBlank c = false) (hrest : ∀ c ∈ rest.head?, isBlank c = true)
    (hrest' : ∀ c ∈ rest'.head?, isBlank c = true) (h : w ++ rest = w' ++ rest') : w = w' := by
  have hcut : ∀ v tail : List Char, (∀ c ∈ v, isBlank c = false) →
      (∀ c ∈ tail.head?, isBlank c = true) → (v ++ tail).takeWhile (!isBlank ·) = v := by
    intro v tail hv htail
    rw [List.takeWhile_append_of_pos (by simpa using hv)]
    cases tail with
    | nil => simp
    | cons c tail => simp [htail c (by simp)]
  rw [← hcut w rest hw hrest, h, hcut w' rest' hw' hrest']

theorem isBlank_of_lowerAscii_eq_version {tag : List Char} (h : lowerAscii tag = version) :
    ∀ c ∈ tag, isBlank c = false :=
  isBlank_of_lowerAscii (by rw [h]; rfl)

theorem ne_nil_of_lowerAscii_eq_version {tag : List Char} (h : lowerAscii tag = version) :
    tag ≠ [] := by
  intro hnil
  rw [hnil] at h
  exact absurd h (by decide)

/-- A text that starts with a word is a record when the word is the version tag and ASCII white space
stands behind it, or nothing. -/
theorem isSome_afterVersion?_append {w rest : List Char} (hw : ∀ c ∈ w, isBlank c = false)
    (hrest : ∀ c ∈ rest.head?, isBlank c = true) :
    (afterVersion? (w ++ rest)).isSome = true ↔
      lowerAscii w = version ∧ ∀ c ∈ rest.head?, isAsciiBlank c = true := by
  rw [Option.isSome_iff_exists]
  constructor
  · rintro ⟨rest', h⟩
    obtain ⟨tag, hcut, htag, hascii⟩ := afterVersion?_eq_some_iff.1 h
    have heq : w = tag := eq_of_word_append_eq hw (isBlank_of_lowerAscii_eq_version htag) hrest
      (fun c hc => isBlank_of_isAsciiBlank (hascii c hc)) hcut
    subst heq
    obtain rfl := List.append_cancel_left hcut
    exact ⟨htag, hascii⟩
  · rintro ⟨htag, hascii⟩
    exact ⟨rest, afterVersion?_eq_some_iff.2 ⟨w, rfl, htag, hascii⟩⟩

theorem select_singleton_eq_some_iff (s : String) :
    select [s] = some s ↔ lowerAscii (firstWord s.toList) = version ∧
      ∀ c ∈ (behindFirstWord s.toList).head?, isAsciiBlank c = true := by
  have hselect : select [s] = some s ↔ isSpf s = true := by
    cases h : isSpf s <;> simp [select, h]
  rw [hselect, isSpf, ← firstWord_append_behindFirstWord]
  exact isSome_afterVersion?_append isBlank_of_mem_firstWord isBlank_of_mem_head?_behindFirstWord

theorem trim_eq_firstWord_append (cs : List Char) :
    trim cs = firstWord cs ++ trimEnd (behindFirstWord cs) := by
  rw [trim, ← firstWord_append_behindFirstWord, trimEnd_append_of_no_blank isBlank_of_mem_firstWord]

theorem head?_trimEnd_iff {cs : List Char} {p : Char → Prop} :
    (∀ c ∈ (trimEnd cs).head?, p c) ↔ (∀ c ∈ cs.head?, p c) ∨ ∀ c ∈ cs, isBlank c = true := by
  by_cases h : trimEnd cs = []
  · rw [h]
    exact ⟨fun _ => .inr (trimEnd_eq_nil_iff.1 h), fun _ c hc => absurd hc (by simp)⟩
  · rw [head?_trimEnd_of_ne_nil h, or_iff_left (mt trimEnd_eq_nil_iff.2 h)]

/-- The white space around a record does not count. -/
theorem afterVersion?_trim {lead tag body trail : List Char} (hlead : ∀ c ∈ lead, isBlank c = true)
    (htag : lowerAscii tag = version) (hbody : ∀ c ∈ body.head?, isAsciiBlank c = true)
    (htrail : ∀ c ∈ trail, isBlank c = true) :
    afterVersion? (trim (lead ++ (tag ++ (body ++ trail)))) = some (trimEnd body) := by
  have hblank := isBlank_of_lowerAscii_eq_version htag
  have hne := ne_nil_of_lowerAscii_eq_version htag
  have hhead : ∀ c ∈ (tag ++ (body ++ trail)).head?, isBlank c = false := by
    intro c hc
    rw [List.head?_append_of_ne_nil _ hne] at hc
    exact hblank c (List.mem_of_mem_head? hc)
  have htrim : trim (lead ++ (tag ++ (body ++ trail))) = tag ++ trimEnd body := by
    rw [trim, trimStart_append_of_blank hlead, trimStart_of_head hhead,
      trimEnd_append_of_no_blank hblank, trimEnd_append_of_blank htrail]
  exact afterVersion?_eq_some_iff.2 ⟨tag, htrim, htag, head?_trimEnd_iff.2 (.inl hbody)⟩

theorem invalidVersion_notMem_iff (s : String) :
    (∀ found, .invalidVersion found ∉ (Record.parse s).messages) ↔
      lowerAscii (firstWord s.toList) = version ∧
        ((∀ c ∈ (behindFirstWord s.toList).head?, isAsciiBlank c = true) ∨
          ∀ c ∈ behindFirstWord s.toList, isBlank c = true) := by
  have hblank : ∀ c ∈ (trimEnd (behindFirstWord s.toList)).head?, isBlank c = true :=
    head?_trimEnd_iff.2 (.inl isBlank_of_mem_head?_behindFirstWord)
  rw [invalidVersion_notMem_parse_iff, trim_eq_firstWord_append,
    isSome_afterVersion?_append isBlank_of_mem_firstWord hblank, head?_trimEnd_iff]

/-- What is selected is read without a complaint about its version. -/
theorem invalidVersion_notMem_of_isSpf {s : String} (h : isSpf s = true) (found : String) :
    .invalidVersion found ∉ (Record.parse s).messages := by
  have hselect : select [s] = some s := by simp [select, h]
  obtain ⟨htag, hascii⟩ := (select_singleton_eq_some_iff s).1 hselect
  exact (invalidVersion_notMem_iff s).2 ⟨htag, .inl hascii⟩ found

theorem head?_words_version_iff (s : String) :
    (∃ w ∈ (words s.toList).head?, lowerAscii w = version) ↔
      lowerAscii (firstWord s.toList) = version := by
  simp only [Option.mem_def, head?_words_eq_some_iff]
  constructor
  · rintro ⟨w, ⟨rfl, -⟩, hw⟩
    exact hw
  · intro hw
    exact ⟨_, ⟨rfl, ne_nil_of_lowerAscii_eq_version hw⟩, hw⟩

/-- To be selected, to be read without a complaint about the version and to start with the version tag
are one and the same, unless white space that is not ASCII's stands right behind the tag. -/
theorem select_tfae_iff (s : String) :
    [select [s] = some s,
      ∀ found, .invalidVersion found ∉ (Record.parse s).messages,
      ∃ w ∈ (words s.toList).head?, lowerAscii w = version].TFAE ↔
    (lowerAscii (firstWord s.toList) = version →
      ∀ c ∈ (behindFirstWord s.toList).head?, isAsciiBlank c = true) := by
  rw [select_singleton_eq_some_iff, invalidVersion_notMem_iff, head?_words_version_iff]
  constructor
  · intro h hw
    have hselected : _ ↔ _ := h.out 2 0
    exact (hselected.1 hw).2
  · intro h
    tfae_have 1 → 2 := fun ⟨hw, hascii⟩ => ⟨hw, .inl hascii⟩
    tfae_have 2 → 3 := And.left
    tfae_have 3 → 1 := fun hw => ⟨hw, h hw⟩
    tfae_finish

/-- A vertical tab is white space to the reader, which trims it, and not to the selection. -/
theorem not_select_tfae : ¬ ∀ s : String,
    [select [s] = some s,
      ∀ found, .invalidVersion found ∉ (Record.parse s).messages,
      ∃ w ∈ (words s.toList).head?, lowerAscii w = version].TFAE := by
  intro h
  have hselected : _ ↔ _ := (h "v=spf1\x0b").out 2 0
  rw [head?_words_version_iff, select_singleton_eq_some_iff] at hselected
  have htag : lowerAscii (firstWord "v=spf1\x0b".toList) = version := by decide
  have hbehind : (behindFirstWord "v=spf1\x0b".toList).head? = some '\x0b' := by decide
  exact absurd ((hselected.1 htag).2 _ hbehind) (by decide)

end SenderAuth.Spf
