import SenderAuth.Text.CodeRange

/-!
White space, and the two things done with it: trimming a text and cutting it into words.
-/
namespace SenderAuth.Text

/-- The code points with the Unicode property White_Space. -/
def whiteSpace : CodeRanges :=
  [(0x09, 0x0D), (0x20, 0x20), (0x85, 0x85), (0xA0, 0xA0), (0x1680, 0x1680), (0x2000, 0x200A),
   (0x2028, 0x2029), (0x202F, 0x202F), (0x205F, 0x205F), (0x3000, 0x3000)]

def isBlank (c : Char) : Bool := whiteSpace.has c

/-- The white space of ASCII: space, tab, line feed, form feed and carriage return. -/
def isAsciiBlank (c : Char) : Bool :=
  c = ' ' || c = '\t' || c = '\n' || c = '\x0c' || c = '\r'

theorem isBlank_of_isAsciiBlank {c : Char} (h : isAsciiBlank c = true) : isBlank c = true := by
  simp only [isAsciiBlank, Bool.or_eq_true, decide_eq_true_eq] at h
  rcases h with (((rfl | rfl) | rfl) | rfl) | rfl <;> decide

theorem isBlank_of_printable {c : Char} (h : 0x21 ≤ c.toNat ∧ c.toNat ≤ 0x7E) :
    isBlank c = false := by
  simp only [isBlank, whiteSpace, CodeRanges.has, List.any_cons, List.any_nil]
  grind

def trimStart (cs : List Char) : List Char := cs.dropWhile isBlank

def trimEnd (cs : List Char) : List Char := (cs.reverse.dropWhile isBlank).reverse

def trim (cs : List Char) : List Char := trimEnd (trimStart cs)

@[simp] theorem trim_nil : trim [] = [] := rfl

theorem trimStart_append_of_blank {lead : List Char} (h : ∀ c ∈ lead, isBlank c = true)
    (cs : List Char) : trimStart (lead ++ cs) = trimStart cs :=
  List.dropWhile_append_of_pos h

theorem trimStart_of_head {cs : List Char} (h : ∀ c ∈ cs.head?, isBlank c = false) :
    trimStart cs = cs := by
  cases cs with
  | nil => rfl
  | cons c cs => simp [trimStart, h c (by simp)]

theorem isBlank_of_mem_head?_trimStart {cs : List Char} {c : Char} (h : c ∈ (trimStart cs).head?) :
    isBlank c = false := by
  have hnot := List.head?_dropWhile_not isBlank cs
  rw [trimStart, Option.mem_def] at h
  simpa [h] using hnot

theorem trimEnd_append_of_blank {trail : List Char} (h : ∀ c ∈ trail, isBlank c = true)
    (cs : List Char) : trimEnd (cs ++ trail) = trimEnd cs := by
  have hreverse : ∀ c ∈ trail.reverse, isBlank c = true := by simpa using h
  simp [trimEnd, List.dropWhile_append_of_pos hreverse]

theorem trimEnd_of_last {cs : List Char} (h : ∀ c ∈ cs.getLast?, isBlank c = false) :
    trimEnd cs = cs := by
  have hreverse : trimStart cs.reverse = cs.reverse :=
    trimStart_of_head fun c hc => h c (by rwa [List.head?_reverse] at hc)
  rw [trimStart] at hreverse
  rw [trimEnd, hreverse, List.reverse_reverse]

theorem trimEnd_of_no_blank {w : List Char} (h : ∀ c ∈ w, isBlank c = false) : trimEnd w = w :=
  trimEnd_of_last fun c hc => h c (List.mem_of_getLast? hc)

theorem isBlank_of_mem_getLast?_trimEnd {cs : List Char} {c : Char}
    (h : c ∈ (trimEnd cs).getLast?) : isBlank c = false := by
  rw [trimEnd, List.getLast?_reverse] at h
  exact isBlank_of_mem_head?_trimStart h

theorem trimEnd_append_of_no_blank {w : List Char} (h : ∀ c ∈ w, isBlank c = false)
    (cs : List Char) : trimEnd (w ++ cs) = w ++ trimEnd cs := by
  have hword : (w.reverse.dropWhile isBlank).reverse = w := trimEnd_of_no_blank h
  simp only [trimEnd, List.reverse_append, List.dropWhile_append, List.isEmpty_iff]
  split
  · rename_i hempty
    rw [hword, hempty, List.reverse_nil, List.append_nil]
  · rw [List.reverse_append, List.reverse_reverse]

theorem exists_blank_append_trimStart (cs : List Char) :
    ∃ lead, (∀ c ∈ lead, isBlank c = true) ∧ cs = lead ++ trimStart cs :=
  ⟨cs.takeWhile isBlank, List.all_eq_true.1 List.all_takeWhile,
    List.takeWhile_append_dropWhile.symm⟩

theorem exists_trimEnd_append_blank (cs : List Char) :
    ∃ trail, (∀ c ∈ trail, isBlank c = true) ∧ cs = trimEnd cs ++ trail := by
  refine ⟨(cs.reverse.takeWhile isBlank).reverse, ?_, ?_⟩
  · intro c hc
    exact List.all_eq_true.1 List.all_takeWhile c (by simpa using hc)
  · rw [trimEnd, ← List.reverse_append, List.takeWhile_append_dropWhile, List.reverse_reverse]

theorem trimEnd_eq_nil_iff {cs : List Char} : trimEnd cs = [] ↔ ∀ c ∈ cs, isBlank c = true := by
  constructor
  · intro h
    obtain ⟨trail, htrail, hcs⟩ := exists_trimEnd_append_blank cs
    rw [h, List.nil_append] at hcs
    exact hcs ▸ htrail
  · intro h
    exact trimEnd_append_of_blank h []

theorem trim_eq_nil_iff {cs : List Char} : trim cs = [] ↔ ∀ c ∈ cs, isBlank c = true := by
  rw [trim, trimEnd_eq_nil_iff]
  constructor
  · intro h c hc
    obtain ⟨lead, hlead, hcs⟩ := exists_blank_append_trimStart cs
    rw [hcs] at hc
    exact (List.mem_append.1 hc).elim (hlead c) (h c)
  · intro h c hc
    exact h c ((List.dropWhile_sublist _).mem hc)

/-- What stands first stays there unless all is white space. -/
theorem head?_trimEnd_of_ne_nil {cs : List Char} (h : trimEnd cs ≠ []) :
    (trimEnd cs).head? = cs.head? := by
  obtain ⟨trail, -, hcs⟩ := exists_trimEnd_append_blank cs
  obtain ⟨c, rest, hrest⟩ := List.exists_cons_of_ne_nil h
  rw [hrest] at hcs ⊢
  rw [hcs, List.cons_append, List.head?_cons, List.head?_cons]

theorem trim_blank_cons {c : Char} (h : isBlank c = true) (cs : List Char) :
    trim (c :: cs) = trim cs := by
  simp [trim, trimStart, h]

theorem trim_sublist (cs : List Char) : (trim cs).Sublist cs := by
  have hend : (trimEnd (trimStart cs)).Sublist (trimStart cs) :=
    List.reverse_sublist.1 (by simpa [trimEnd] using List.dropWhile_sublist isBlank)
  exact hend.trans (List.dropWhile_sublist isBlank)

/-- There is no white space at either end. -/
structure IsTrimmed (cs : List Char) : Prop where
  head : ∀ c ∈ cs.head?, isBlank c = false
  last : ∀ c ∈ cs.getLast?, isBlank c = false

theorem isTrimmed_trim (cs : List Char) : IsTrimmed (trim cs) where
  head c hc := by
    have hne : trimEnd (trimStart cs) ≠ [] := by
      intro hnil
      rw [trim, hnil] at hc
      cases hc
    rw [trim, head?_trimEnd_of_ne_nil hne] at hc
    exact isBlank_of_mem_head?_trimStart hc
  last _ hc := isBlank_of_mem_getLast?_trimEnd hc

theorem IsTrimmed.trim_eq {cs : List Char} (h : IsTrimmed cs) : trim cs = cs := by
  rw [trim, trimStart_of_head h.head, trimEnd_of_last h.last]

/-- The words of a text: its longest stretches without white space, in order. -/
def words (cs : List Char) : List (List Char) :=
  (cs.splitOnP isBlank).filter (· ≠ [])

@[simp] theorem words_nil : words [] = [] := rfl

theorem words_append_blank {c : Char} (h : isBlank c = true) (as bs : List Char) :
    words (as ++ c :: bs) = words as ++ words bs := by
  simp [words, List.splitOnP_append_cons as bs h]

theorem words_blank_cons {c : Char} (h : isBlank c = true) (cs : List Char) :
    words (c :: cs) = words cs := by
  simpa using words_append_blank h [] cs

theorem words_of_no_blank {w : List Char} (hne : w ≠ []) (h : ∀ c ∈ w, isBlank c = false) :
    words w = [w] := by
  simp [words, List.splitOnP_eq_singleton h, hne]

theorem words_append_of_blank {trail : List Char} (h : ∀ c ∈ trail, isBlank c = true)
    (cs : List Char) : words (cs ++ trail) = words cs := by
  induction trail generalizing cs with
  | nil => simp
  | cons c trail ih =>
    have htrail : words trail = [] := ih (fun d hd => h d (by simp [hd])) []
    rw [words_append_blank (h c (by simp)), htrail, List.append_nil]

theorem words_blank_append {lead : List Char} (h : ∀ c ∈ lead, isBlank c = true)
    (cs : List Char) : words (lead ++ cs) = words cs := by
  induction lead with
  | nil => rfl
  | cons c lead ih =>
    rw [List.cons_append, words_blank_cons (h c (by simp)), ih fun d hd => h d (by simp [hd])]

/-- A word ends at the first white space behind it. -/
theorem words_append_of_no_blank {w cs : List Char} (hne : w ≠ [])
    (h : ∀ c ∈ w, isBlank c = false) (hcs : ∀ c ∈ cs.head?, isBlank c = true) :
    words (w ++ cs) = w :: words cs := by
  cases cs with
  | nil => simp [words_of_no_blank hne h]
  | cons c cs =>
    have hc : isBlank c = true := hcs c (by simp)
    rw [words_append_blank hc, words_of_no_blank hne h, words_blank_cons hc, List.singleton_append]

theorem words_trimStart (cs : List Char) : words (trimStart cs) = words cs := by
  obtain ⟨lead, hlead, hcs⟩ := exists_blank_append_trimStart cs
  calc words (trimStart cs)
    _ = words (lead ++ trimStart cs) := (words_blank_append hlead _).symm
    _ = words cs := by rw [← hcs]

theorem words_trimEnd (cs : List Char) : words (trimEnd cs) = words cs := by
  obtain ⟨trail, htrail, hcs⟩ := exists_trimEnd_append_blank cs
  calc words (trimEnd cs)
    _ = words (trimEnd cs ++ trail) := (words_append_of_blank htrail _).symm
    _ = words cs := by rw [← hcs]

theorem words_trim (cs : List Char) : words (trim cs) = words cs := by
  rw [trim, words_trimEnd, words_trimStart]

theorem eq_false_of_mem_splitOnP {p : Char → Bool} {w : List Char} :
    ∀ {cs : List Char}, w ∈ cs.splitOnP p → ∀ c ∈ w, p c = false
  | [], h => by simp_all
  | a :: as, h => by
    rw [List.splitOnP_cons_eq_if_modifyHead] at h
    split at h
    · rcases List.mem_cons.1 h with rfl | h
      · simp
      · exact eq_false_of_mem_splitOnP h
    · rename_i ha
      obtain ⟨x, xs, hx⟩ := List.exists_cons_of_ne_nil (List.splitOnP_ne_nil p as)
      rw [hx, List.modifyHead_cons] at h
      rcases List.mem_cons.1 h with rfl | h
      · intro c hc
        rcases List.mem_cons.1 hc with rfl | hc
        · simpa using ha
        · exact eq_false_of_mem_splitOnP (hx ▸ List.mem_cons_self ..) c hc
      · exact eq_false_of_mem_splitOnP (hx ▸ List.mem_cons_of_mem _ h)

theorem isBlank_of_mem_words {w cs : List Char} (h : w ∈ words cs) :
    ∀ c ∈ w, isBlank c = false :=
  eq_false_of_mem_splitOnP (List.mem_filter.1 h).1

def IsWord (w : List Char) : Prop := w ≠ [] ∧ ∀ c ∈ w, isBlank c = false

instance (w : List Char) : Decidable (IsWord w) :=
  decidable_of_iff (w ≠ [] ∧ w.all (!isBlank ·) = true) (by simp [IsWord])

theorem head?_flatMap_blank (ws : List (List Char)) :
    ∀ c ∈ (ws.flatMap (' ' :: ·)).head?, isAsciiBlank c = true := by
  cases ws with
  | nil => simp
  | cons w ws => simp [isAsciiBlank]

theorem words_flatMap_blank {ws : List (List Char)} (h : ∀ w ∈ ws, IsWord w) :
    words (ws.flatMap (' ' :: ·)) = ws := by
  induction ws with
  | nil => rfl
  | cons w ws ih =>
    obtain ⟨hne, hblank⟩ := h w List.mem_cons_self
    have hnext : ∀ c ∈ (ws.flatMap (' ' :: ·)).head?, isBlank c = true :=
      fun c hc => isBlank_of_isAsciiBlank (head?_flatMap_blank ws c hc)
    rw [List.flatMap_cons, List.cons_append, words_blank_cons (by decide),
      words_append_of_no_blank hne hblank hnext, ih fun v hv => h v (List.mem_cons_of_mem w hv)]

end SenderAuth.Text
