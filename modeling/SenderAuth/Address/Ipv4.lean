import SenderAuth.Text.Number

/-!
IPv4 addresses and their dotted form.
-/
namespace SenderAuth

structure Ipv4 where
  a : UInt8
  b : UInt8
  c : UInt8
  d : UInt8
  deriving DecidableEq, Repr

namespace Ipv4
open Text

def octets (x : Ipv4) : List UInt8 := [x.a, x.b, x.c, x.d]

/-- An octet is a number up to 255 of at most three digits, and no zero stands before another digit. -/
def octet? (cs : List Char) : Option (UInt8 × List Char) :=
  match run? Char.isDigit 3 cs with
  | none => none
  | some (digits, rest) =>
    if digits.head? = some '0' ∧ 1 < digits.length then none
    else if 255 < decimalValue digits then none
    else some ((decimalValue digits).toUInt8, rest)

def read? (cs : List Char) : Option (Ipv4 × List Char) := do
  let (a, cs) ← octet? cs
  let (b, cs) ← after? '.' cs >>= octet?
  let (c, cs) ← after? '.' cs >>= octet?
  let (d, cs) ← after? '.' cs >>= octet?
  return (⟨a, b, c, d⟩, cs)

theorem rest_of_octet? {cs rest : List Char} {o : UInt8} (h : octet? cs = some (o, rest)) :
    rest = cs.dropWhile Char.isDigit := by
  unfold octet? run? at h
  grind

/-- No address starts a text whose first run of digits is not followed by a dot. -/
theorem read?_eq_none {cs : List Char} (h : (cs.dropWhile Char.isDigit).head? ≠ some '.') :
    read? cs = none := by
  cases ho : octet? cs with
  | none => simp [read?, ho]
  | some p =>
    obtain ⟨o, rest⟩ := p
    have hrest := rest_of_octet? ho
    have hdot : after? '.' rest = none := by
      cases rest with
      | nil => rfl
      | cons c cs =>
        have hc : c ≠ '.' := by
          rintro rfl
          exact h (by rw [← hrest]; rfl)
        simp [after?, hc]
    simp [read?, ho, hdot]

def parse? (cs : List Char) : Option Ipv4 :=
  match read? cs with
  | some (x, []) => some x
  | _ => none

def renderOctet (o : UInt8) : List Char := Nat.toDigits 10 o.toNat

def render (x : Ipv4) : List Char :=
  renderOctet x.a ++ '.' :: renderOctet x.b ++ '.' :: renderOctet x.c ++ '.' :: renderOctet x.d

theorem eq_dot_or_isDigit_of_mem_render {x : Ipv4} {c : Char} (h : c ∈ x.render) :
    c = '.' ∨ c.isDigit = true := by
  have hoctet {o : UInt8} (hc : c ∈ renderOctet o) : c.isDigit = true :=
    Nat.isDigit_of_mem_toDigits (by decide) (by decide) hc
  simp only [render, List.mem_append, List.mem_cons] at h
  rcases h with ((h | h | h) | h | h) | h | h
  · exact .inr (hoctet h)
  · exact .inl h
  · exact .inr (hoctet h)
  · exact .inl h
  · exact .inr (hoctet h)
  · exact .inl h
  · exact .inr (hoctet h)

theorem octet?_renderOctet (o : UInt8) {rest : List Char}
    (h : ∀ c ∈ rest.head?, c.isDigit = false) : octet? (renderOctet o ++ rest) = some (o, rest) := by
  have hlt : o.toNat < 256 := o.toNat_lt
  have hrun : run? Char.isDigit 3 (renderOctet o ++ rest) = some (renderOctet o, rest) :=
    run?_append Nat.toDigits_ne_nil
      ((Nat.length_toDigits_le_iff (by decide) (by decide)).2 (by omega))
      (fun c hc => Nat.isDigit_of_mem_toDigits (by decide) (by decide) hc) h
  have hzero : ∀ k : Fin 256, ¬ ((Nat.toDigits 10 k.val).head? = some '0' ∧
      1 < (Nat.toDigits 10 k.val).length) := by decide +kernel
  have hz : ¬ ((renderOctet o).head? = some '0' ∧ 1 < (renderOctet o).length) :=
    hzero ⟨o.toNat, hlt⟩
  simp only [octet?, hrun]
  rw [if_neg hz]
  simp only [renderOctet, decimalValue_toDigits, Nat.toUInt8, UInt8.ofNat_toNat]
  rw [if_neg (by omega)]

theorem read?_render (x : Ipv4) {rest : List Char} (h : ∀ c ∈ rest.head?, c.isDigit = false) :
    read? (x.render ++ rest) = some (x, rest) := by
  have dot : ∀ cs : List Char, ∀ c ∈ ('.' :: cs).head?, c.isDigit = false := by
    intro cs c hc
    simp only [List.head?_cons, Option.mem_some_iff] at hc
    subst hc
    decide
  simp [read?, render, octet?_renderOctet _ (dot _), octet?_renderOctet _ h]

@[simp] theorem parse?_render (x : Ipv4) : parse? x.render = some x := by
  have h : read? (x.render ++ []) = some (x, []) := read?_render x (by simp)
  rw [List.append_nil] at h
  simp [parse?, h]

end Ipv4
end SenderAuth
