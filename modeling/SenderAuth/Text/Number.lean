/-!
Numbers at the start of a text: the longest run of digits there, its value in base ten or sixteen,
and the text after it.
-/
namespace SenderAuth.Text

/-- The longest run of characters in `p` at the start, and the rest. Fails on a run that is empty
or has more than `longest` characters. -/
def run? (p : Char → Bool) (longest : Nat) (cs : List Char) : Option (List Char × List Char) :=
  let run := cs.takeWhile p
  if run = [] ∨ longest < run.length then none else some (run, cs.dropWhile p)

theorem run?_append {p : Char → Bool} {longest : Nat} {run rest : List Char} (hne : run ≠ [])
    (hlen : run.length ≤ longest) (hrun : ∀ c ∈ run, p c = true)
    (hrest : ∀ c ∈ rest.head?, p c = false) : run? p longest (run ++ rest) = some (run, rest) := by
  have hnil : rest.takeWhile p = [] ∧ rest.dropWhile p = rest := by
    cases rest with
    | nil => simp
    | cons c cs =>
      have hc : p c = false := hrest c (by simp)
      simp [hc]
  have hlt : ¬ longest < run.length := by omega
  simp [run?, List.takeWhile_append_of_pos hrun, List.dropWhile_append_of_pos hrun, hnil.1, hnil.2,
    hne, hlt]

/-- A character of the text is passed over when it stands first. -/
def after? (c : Char) : List Char → Option (List Char)
  | [] => none
  | d :: ds => if d = c then some ds else none

@[simp] theorem after?_cons_self (c : Char) (cs : List Char) : after? c (c :: cs) = some cs := by
  simp [after?]

theorem after?_eq_some_iff {c : Char} {cs rest : List Char} :
    after? c cs = some rest ↔ cs = c :: rest := by
  cases cs <;> simp [after?]

def decimalValue (digits : List Char) : Nat := Nat.ofDigitChars 10 digits 0

@[simp] theorem decimalValue_toDigits (n : Nat) : decimalValue (Nat.toDigits 10 n) = n :=
  Nat.ofDigitChars_ten_toDigits

/-- The number is written in these decimal digits. Zeros may stand in front. -/
def IsDecimal (n : Nat) (digits : List Char) : Prop :=
  digits ≠ [] ∧ (∀ c ∈ digits, c.isDigit = true) ∧ decimalValue digits = n

instance (n : Nat) (digits : List Char) : Decidable (IsDecimal n digits) :=
  decidable_of_iff (digits ≠ [] ∧ digits.all Char.isDigit = true ∧ decimalValue digits = n) (by
    rw [IsDecimal, List.all_eq_true])

theorem isDecimal_toDigits (n : Nat) : IsDecimal n (Nat.toDigits 10 n) :=
  ⟨Nat.toDigits_ne_nil, fun _ hc => Nat.isDigit_of_mem_toDigits (by decide) (by decide) hc,
    decimalValue_toDigits n⟩

def isHexDigit (c : Char) : Bool :=
  c.isDigit || (decide ('a' ≤ c) && decide (c ≤ 'f')) || (decide ('A' ≤ c) && decide (c ≤ 'F'))

def hexDigitValue (c : Char) : Nat :=
  if c.isDigit then c.toNat - 48 else if 'a' ≤ c then c.toNat - 87 else c.toNat - 55

def hexValue (digits : List Char) : Nat :=
  digits.foldl (fun n c => 16 * n + hexDigitValue c) 0

theorem hexDigitValue_digitChar {n : Nat} (h : n < 16) : hexDigitValue n.digitChar = n := by
  have all : ∀ k : Fin 16, hexDigitValue k.val.digitChar = k.val := by decide
  exact all ⟨n, h⟩

theorem isHexDigit_digitChar {n : Nat} (h : n < 16) : isHexDigit n.digitChar = true := by
  have all : ∀ k : Fin 16, isHexDigit k.val.digitChar = true := by decide
  exact all ⟨n, h⟩

@[simp] theorem hexValue_toDigits (n : Nat) : hexValue (Nat.toDigits 16 n) = n := by
  induction n using Nat.strongRecOn with
  | ind n ih =>
    by_cases h : n < 16
    · simp [Nat.toDigits_of_lt_base h, hexValue, hexDigitValue_digitChar h]
    · rw [Nat.toDigits_of_base_le (by decide) (by omega)]
      have hq := ih (n / 16) (by omega)
      have hr : n % 16 < 16 := by omega
      simp only [hexValue] at hq ⊢
      simp only [List.foldl_append, List.foldl_cons, List.foldl_nil, hq, hexDigitValue_digitChar hr]
      omega

theorem isHexDigit_of_mem_toDigits {n : Nat} {c : Char} (h : c ∈ Nat.toDigits 16 n) :
    isHexDigit c = true := by
  induction n using Nat.strongRecOn generalizing c with
  | ind n ih =>
    by_cases hn : n < 16
    · rw [Nat.toDigits_of_lt_base hn, List.mem_singleton] at h
      exact h ▸ isHexDigit_digitChar hn
    · rw [Nat.toDigits_of_base_le (by decide) (by omega)] at h
      have hr : n % 16 < 16 := by omega
      rw [List.mem_append] at h
      rcases h with h | h
      · exact ih (n / 16) (by omega) h
      · rw [List.mem_singleton] at h
        exact h ▸ isHexDigit_digitChar hr

end SenderAuth.Text
