import SenderAuth.Text.Split

/-!
Cuts at places that are counted in bytes of UTF-8. A text can be cut at a place that lies within it and between
two characters, and nowhere else.
-/
namespace SenderAuth.Text

/-- The two parts of a text at a byte position, where it can be cut there. -/
def cutAt? (s : String) (i : Nat) : Option (String × String) :=
  if h : (⟨i⟩ : String.Pos.Raw).IsValid s then
    some ((s.sliceTo (s.pos ⟨i⟩ h)).copy, (s.sliceFrom (s.pos ⟨i⟩ h)).copy)
  else none

theorem isSome_cutAt?_iff {s : String} {i : Nat} :
    (cutAt? s i).isSome = true ↔ (⟨i⟩ : String.Pos.Raw).IsValid s := by
  unfold cutAt?
  split <;> simp [*]

theorem cutAt?_append (a b : String) : cutAt? (a ++ b) a.utf8ByteSize = some (a, b) := by
  have h : (⟨a.utf8ByteSize⟩ : String.Pos.Raw).IsValid (a ++ b) :=
    String.Pos.Raw.isValid_iff_exists_append.2 ⟨a, b, rfl, rfl⟩
  have hsplits : ((a ++ b).pos ⟨a.utf8ByteSize⟩ h).Splits a b := ⟨rfl, rfl⟩
  rw [cutAt?, dif_pos h, hsplits.copy_sliceTo_eq, hsplits.copy_sliceFrom_eq]

theorem cutAt?_eq_some_iff {s a b : String} {i : Nat} :
    cutAt? s i = some (a, b) ↔ s = a ++ b ∧ a.utf8ByteSize = i := by
  constructor
  · intro h
    obtain ⟨a', b', rfl, hi⟩ := String.Pos.Raw.isValid_iff_exists_append.1
      (isSome_cutAt?_iff.1 (Option.isSome_of_eq_some h))
    obtain rfl : i = a'.utf8ByteSize := congrArg String.Pos.Raw.byteIdx hi
    rw [cutAt?_append] at h
    cases h
    exact ⟨rfl, rfl⟩
  · rintro ⟨rfl, rfl⟩
    exact cutAt?_append a b

def sliceTo? (s : String) (i : Nat) : Option String := (cutAt? s i).map Prod.fst

def sliceFrom? (s : String) (i : Nat) : Option String := (cutAt? s i).map Prod.snd

@[simp] theorem sliceTo?_append (a b : String) : sliceTo? (a ++ b) a.utf8ByteSize = some a := by
  rw [sliceTo?, cutAt?_append, Option.map_some]

@[simp] theorem sliceFrom?_append (a b : String) : sliceFrom? (a ++ b) a.utf8ByteSize = some b := by
  rw [sliceFrom?, cutAt?_append, Option.map_some]

theorem sliceTo?_eq_some_iff {s a : String} {i : Nat} :
    sliceTo? s i = some a ↔ ∃ b, s = a ++ b ∧ a.utf8ByteSize = i := by
  simp [sliceTo?, cutAt?_eq_some_iff]

def byteIndex? (c : Char) : List Char → Option Nat
  | [] => none
  | d :: ds => if d = c then some 0 else (byteIndex? c ds).map (d.utf8Size + ·)

theorem utf8ByteSize_ofList_cons (c : Char) (cs : List Char) :
    (String.ofList (c :: cs)).utf8ByteSize = c.utf8Size + (String.ofList cs).utf8ByteSize := by
  rw [String.ofList_cons, String.utf8ByteSize_append, String.utf8ByteSize_singleton]

/-- The bytes in front of the first `c` are those of the text in front of it. -/
theorem byteIndex?_eq_map_splitFirst? (c : Char) (cs : List Char) :
    byteIndex? c cs = (splitFirst? c cs).map fun (before, _) => (String.ofList before).utf8ByteSize := by
  induction cs with
  | nil => rfl
  | cons d ds ih =>
    by_cases h : d = c
    · simp [byteIndex?, splitFirst?, h]
    · rw [byteIndex?, if_neg h, ih, splitFirst?, if_neg h, Option.map_map, Option.map_map]
      congr 1
      funext p
      exact (utf8ByteSize_ofList_cons d p.1).symm

/-- Inside a character nothing can be cut, and behind the end neither. -/
example : sliceFrom? "é/" 1 = none ∧ sliceFrom? "é/" 2 = some "/" ∧ sliceFrom? "é/" 4 = none := by
  decide +kernel

end SenderAuth.Text
