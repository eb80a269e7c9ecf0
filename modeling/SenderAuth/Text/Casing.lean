import SenderAuth.Text.Blank
import SenderAuth.Text.CaseTable

/-!
Lower case: of ASCII letters alone, and of all of Unicode, where a capital sigma at the end of a word
becomes a final sigma.
-/
namespace SenderAuth.Text

def lowerAscii (cs : List Char) : List Char := cs.map Char.toLower

@[simp] theorem lowerAscii_nil : lowerAscii [] = [] := rfl

@[simp] theorem lowerAscii_cons (c : Char) (cs : List Char) :
    lowerAscii (c :: cs) = c.toLower :: lowerAscii cs := rfl

@[simp] theorem lowerAscii_append (as bs : List Char) :
    lowerAscii (as ++ bs) = lowerAscii as ++ lowerAscii bs := by
  simp [lowerAscii]

@[simp] theorem length_lowerAscii (cs : List Char) : (lowerAscii cs).length = cs.length := by
  simp [lowerAscii]

theorem toNat_toLower (c : Char) :
    c.toLower.toNat = if 65 ≤ c.toNat ∧ c.toNat ≤ 90 then c.toNat + 32 else c.toNat := by
  have hrange : c.val ≥ 'A'.val ∧ c.val ≤ 'Z'.val ↔ 65 ≤ c.toNat ∧ c.toNat ≤ 90 := Iff.rfl
  unfold Char.toLower
  split
  · rename_i h
    have hupper := hrange.1 h
    have hsum : c.toNat + 32 < 2 ^ 32 := by omega
    rw [if_pos hupper]
    exact (UInt32.toNat_add ..).trans (Nat.mod_eq_of_lt hsum)
  · rename_i h
    rw [if_neg (mt hrange.2 h)]

theorem isBlank_toLower (c : Char) : isBlank c.toLower = isBlank c := by
  simp only [isBlank, whiteSpace, CodeRanges.has, List.any_cons, List.any_nil, toNat_toLower]
  split
  · grind
  · rfl

theorem isBlank_of_lowerAscii {cs : List Char} (h : (lowerAscii cs).all (!isBlank ·) = true) :
    ∀ c ∈ cs, isBlank c = false := by
  intro c hc
  have hlower := List.all_eq_true.1 h c.toLower (List.mem_map_of_mem hc)
  rw [← isBlank_toLower]
  simpa using hlower

/-- A name as it is compared where the case of ASCII letters does not count. -/
def folded (name : List Char) : String := String.ofList (lowerAscii name)

theorem lowerAscii_of_folded {name : List Char} {s : String} (h : folded name = s) :
    lowerAscii name = s.toList := by
  rw [← h, folded, String.toList_ofList]

theorem notMem_of_folded {name : List Char} {s : String} (h : folded name = s) {c : Char}
    (hc : c.toLower ∉ s.toList) : c ∉ name := by
  intro hmem
  rw [← lowerAscii_of_folded h] at hc
  exact hc (List.mem_map_of_mem hmem)

theorem ne_nil_of_folded {name : List Char} {s : String} (h : folded name = s) (hs : s ≠ "") :
    name ≠ [] := by
  intro hnil
  subst hnil
  exact hs h.symm

/-- The lower case of a character on its own; the capital dotted I alone takes two characters. -/
def lowerChar (c : Char) : List Char :=
  if c.toNat < 0x80 then [c.toLower]
  else if c = 'İ' then ['i', '\u0307']
  else match lowerRuns.find? (·.has c.toNat) with
    | some r => [Char.ofNat (r.map c.toNat)]
    | none => [c]

/-- Whether the first character that is not case-ignorable is a cased one. -/
def meetsCased (cs : List Char) : Bool :=
  match cs.dropWhile caseIgnorable.has with
  | [] => false
  | c :: _ => cased.has c

/-- A sigma is final when a cased character comes before it and none comes after it. -/
def lowerSigma (before after : List Char) : Char :=
  if meetsCased before && !meetsCased after then 'ς' else 'σ'

/-- The lower case of a text, where `before` is the text in front of it, read backwards. -/
def lowerFrom (before : List Char) : List Char → List Char
  | [] => []
  | c :: cs =>
    (if c = 'Σ' then [lowerSigma before cs] else lowerChar c) ++ lowerFrom (c :: before) cs

def lower (s : String) : String := String.ofList (lowerFrom [] s.toList)

theorem toLower_of_not_capital {c : Char} (h : ¬ (65 ≤ c.toNat ∧ c.toNat ≤ 90)) : c.toLower = c := by
  have hnat := toNat_toLower c
  rw [if_neg h] at hnat
  rw [← Char.ofNat_toNat c.toLower, hnat, Char.ofNat_toNat]

/-- What each capital letter of ASCII shares with its small letter, all characters share with their lower
case in ASCII. -/
theorem apply_toLower {α : Type} {f : Char → α}
    (h : ∀ n : Fin 26, f (Char.ofNat (n + 65)).toLower = f (Char.ofNat (n + 65))) (c : Char) :
    f c.toLower = f c := by
  by_cases hc : 65 ≤ c.toNat ∧ c.toNat ≤ 90
  · have hcapital : Char.ofNat (c.toNat - 65 + 65) = c := by
      rw [Nat.sub_add_cancel hc.1, Char.ofNat_toNat]
    have hletter := h ⟨c.toNat - 65, by omega⟩
    rwa [hcapital] at hletter
  · rw [toLower_of_not_capital hc]

theorem isAlphanum_toLower (c : Char) : c.toLower.isAlphanum = c.isAlphanum :=
  apply_toLower (by decide) c

theorem toLower_toLower (c : Char) : c.toLower.toLower = c.toLower := apply_toLower (by decide) c

@[simp] theorem lowerAscii_lowerAscii (cs : List Char) :
    lowerAscii (lowerAscii cs) = lowerAscii cs := by
  have htwice : Char.toLower ∘ Char.toLower = Char.toLower := funext toLower_toLower
  rw [lowerAscii, lowerAscii, List.map_map, htwice]

theorem isTrimmed_lowerAscii_iff {cs : List Char} : IsTrimmed (lowerAscii cs) ↔ IsTrimmed cs := by
  have hhead : (∀ c ∈ (lowerAscii cs).head?, isBlank c = false) ↔
      ∀ c ∈ cs.head?, isBlank c = false := by
    simp [lowerAscii, isBlank_toLower]
  have hlast : (∀ c ∈ (lowerAscii cs).getLast?, isBlank c = false) ↔
      ∀ c ∈ cs.getLast?, isBlank c = false := by
    simp [lowerAscii, isBlank_toLower]
  exact ⟨fun h => ⟨hhead.1 h.head, hlast.1 h.last⟩, fun h => ⟨hhead.2 h.head, hlast.2 h.last⟩⟩

theorem isUpper_iff_toNat {c : Char} : c.isUpper = true ↔ 65 ≤ c.toNat ∧ c.toNat ≤ 90 := by
  have hrange : c.isUpper = decide (c.val ≥ 65 ∧ c.val ≤ 90) := rfl
  rw [hrange, decide_eq_true_eq]
  exact Iff.rfl

theorem isLower_iff_toNat {c : Char} : c.isLower = true ↔ 97 ≤ c.toNat ∧ c.toNat ≤ 122 := by
  have hrange : c.isLower = (decide (c.val ≥ 97) && decide (c.val ≤ 122)) := rfl
  rw [hrange, Bool.and_eq_true, decide_eq_true_eq, decide_eq_true_eq]
  exact Iff.rfl

theorem isAlphanum_iff_toNat {c : Char} : c.isAlphanum = true ↔
    (65 ≤ c.toNat ∧ c.toNat ≤ 90 ∨ 97 ≤ c.toNat ∧ c.toNat ≤ 122) ∨ 48 ≤ c.toNat ∧ c.toNat ≤ 57 := by
  have hsorts : c.isAlphanum = (c.isUpper || c.isLower || c.isDigit) := rfl
  rw [hsorts, Bool.or_eq_true, Bool.or_eq_true, isUpper_iff_toNat, isLower_iff_toNat,
    Char.isDigit_iff_toNat]
  exact Iff.rfl

theorem isBlank_of_isAlphanum {c : Char} (h : c.isAlphanum = true) : isBlank c = false := by
  rw [isAlphanum_iff_toNat] at h
  exact isBlank_of_printable (by omega)

/-- The letters and digits that lower case leaves as they are. -/
theorem isLower_or_isDigit_iff {c : Char} :
    c.isLower = true ∨ c.isDigit = true ↔ c.isAlphanum = true ∧ c.toLower = c := by
  have hsmall : c.toLower = c ↔ ¬ (65 ≤ c.toNat ∧ c.toNat ≤ 90) := by
    refine ⟨fun h hcapital => ?_, toLower_of_not_capital⟩
    have hnat := toNat_toLower c
    rw [h, if_pos hcapital] at hnat
    omega
  rw [isLower_iff_toNat, Char.isDigit_iff_toNat, isAlphanum_iff_toNat, hsmall]
  simp only [Char.reduceToNat]
  omega

theorem caseIgnorable_toLower (c : Char) : caseIgnorable.has c.toLower = caseIgnorable.has c := by
  -- the long table is gone through once for all letters, not once for each
  have htable : ∀ r ∈ caseIgnorable, r.2 < 65 ∨ (90 < r.1 ∧ r.2 < 97) ∨ 122 < r.1 := by
    decide +kernel
  have hletter (d : Char) (hd : 65 ≤ d.toNat ∧ d.toNat ≤ 90 ∨ 97 ≤ d.toNat ∧ d.toNat ≤ 122) :
      caseIgnorable.has d = false := by
    rw [Bool.eq_false_iff, Ne, CodeRanges.has_iff]
    rintro ⟨r, hr, hrange⟩
    have hmiss := htable r hr
    omega
  by_cases hc : 65 ≤ c.toNat ∧ c.toNat ≤ 90
  · have hlower : c.toLower.toNat = c.toNat + 32 := by rw [toNat_toLower, if_pos hc]
    rw [hletter c (.inl hc), hletter c.toLower (.inr (by omega))]
  · rw [toLower_of_not_capital hc]

theorem meetsCased_lowerAscii (cs : List Char) : meetsCased (lowerAscii cs) = meetsCased cs := by
  have hcased (c : Char) : cased.has c.toLower = cased.has c := apply_toLower (by decide +kernel) c
  have hignorable : caseIgnorable.has ∘ Char.toLower = caseIgnorable.has :=
    funext caseIgnorable_toLower
  rw [meetsCased, lowerAscii, List.dropWhile_map, hignorable, meetsCased]
  cases cs.dropWhile caseIgnorable.has with
  | nil => rfl
  | cons c cs => exact hcased c

theorem lowerFrom_lowerAscii (before cs : List Char) :
    lowerFrom (lowerAscii before) (lowerAscii cs) = lowerFrom before cs := by
  have hsigma (c : Char) : decide (c.toLower = 'Σ') = decide (c = 'Σ') :=
    apply_toLower (f := fun c => decide (c = 'Σ')) (by decide +kernel) c
  have hchar (c : Char) : lowerChar c.toLower = lowerChar c := apply_toLower (by decide +kernel) c
  induction cs generalizing before with
  | nil => rfl
  | cons c cs ih =>
    have hrest := ih (c :: before)
    rw [lowerAscii_cons] at hrest
    simp only [lowerAscii_cons, lowerFrom, hrest, hchar, lowerSigma, meetsCased_lowerAscii,
      decide_eq_decide.1 (hsigma c)]

/-- The case of ASCII letters does not show in lower case, also next to a sigma. -/
theorem lower_eq_of_lowerAscii_eq {a b : String} (h : lowerAscii a.toList = lowerAscii b.toList) :
    lower a = lower b := by
  rw [lower, lower, ← lowerFrom_lowerAscii, h, lowerFrom_lowerAscii]

end SenderAuth.Text
