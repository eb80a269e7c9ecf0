import SenderAuth.Address.Ipv4

/-!
IPv6 addresses and their text: eight groups of up to four hex digits, where `::` stands for groups
of zeros and the last two groups may be written as a dotted IPv4 address.
-/
namespace SenderAuth

structure Ipv6 where
  groups : List UInt16
  length_groups : groups.length = 8
  deriving DecidableEq

namespace Ipv6
open Text

def ofGroups? (groups : List UInt16) : Option Ipv6 :=
  if h : groups.length = 8 then some ⟨groups, h⟩ else none

@[simp] theorem ofGroups?_groups (x : Ipv6) : ofGroups? x.groups = some x := by
  simp [ofGroups?, x.length_groups]

def ofIpv4 (x : Ipv4) : List UInt16 :=
  [x.a.toUInt16 * 256 + x.b.toUInt16, x.c.toUInt16 * 256 + x.d.toUInt16]

def group? (cs : List Char) : Option (UInt16 × List Char) :=
  (run? isHexDigit 4 cs).map fun (digits, rest) => ((hexValue digits).toUInt16, rest)

/-- A stretch of groups written with colons between them. -/
structure Stretch where
  groups : List UInt16
  /-- whether its last two groups were written as an IPv4 address -/
  dotted : Bool
  rest : List Char

/-- The longest stretch of at most `room` groups at the start of a text. A dotted address is tried
first wherever it still has room; each group but the `first` needs a colon before it. -/
def stretch (first : Bool) : (room : Nat) → List Char → Stretch
  | 0, cs => ⟨[], false, cs⟩
  | room + 1, cs =>
    match if first then some cs else after? ':' cs with
    | none => ⟨[], false, cs⟩
    | some body =>
      match if room = 0 then none else Ipv4.read? body with
      | some (x, rest) => ⟨ofIpv4 x, true, rest⟩
      | none =>
        match group? body with
        | none => ⟨[], false, cs⟩
        | some (g, rest) =>
          let more := stretch false room rest
          ⟨g :: more.groups, more.dotted, more.rest⟩

/-- The groups at both ends with zeros between them, eight in all. -/
def fill (front back : List UInt16) : List UInt16 :=
  front ++ List.replicate (8 - front.length - back.length) 0 ++ back

/-- The address that a text is. A front part of fewer than eight groups is followed by `::` and by at
most as many groups as leave one for it to stand for; only the last part may be dotted. -/
def parse? (cs : List Char) : Option Ipv6 :=
  let front := stretch true 8 cs
  if front.groups.length = 8 then
    if front.rest = [] then ofGroups? front.groups else none
  else if front.dotted then none
  else do
    let cs ← after? ':' front.rest >>= after? ':'
    let back := stretch true (7 - front.groups.length) cs
    if back.rest = [] then ofGroups? (fill front.groups back.groups) else none

/-- A group is written in up to four hex digits. -/
def IsGroup (g : UInt16) (digits : List Char) : Prop :=
  digits ≠ [] ∧ digits.length ≤ 4 ∧ (∀ c ∈ digits, isHexDigit c = true) ∧ hexValue digits = g.toNat

instance (g : UInt16) (digits : List Char) : Decidable (IsGroup g digits) :=
  decidable_of_iff (digits ≠ [] ∧ digits.length ≤ 4 ∧ digits.all isHexDigit = true ∧
    hexValue digits = g.toNat) (by rw [IsGroup, List.all_eq_true])

/-- Groups with colons between them, none left out. -/
inductive IsGroups : List UInt16 → List Char → Prop
  | one {g : UInt16} {digits : List Char} (hg : IsGroup g digits) : IsGroups [g] digits
  | cons {g : UInt16} {digits : List Char} {gs : List UInt16} {cs : List Char}
      (hg : IsGroup g digits) (hgs : IsGroups gs cs) : IsGroups (g :: gs) (digits ++ ':' :: cs)

theorem IsGroups.eq_colon_or_isHexDigit_of_mem {gs : List UInt16} {cs : List Char}
    (h : IsGroups gs cs) {c : Char} (hc : c ∈ cs) : c = ':' ∨ isHexDigit c = true := by
  induction h with
  | one hg => exact .inr (hg.2.2.1 c hc)
  | cons hg _ ih =>
    rcases List.mem_append.1 hc with hc | hc
    · exact .inr (hg.2.2.1 c hc)
    · rcases List.mem_cons.1 hc with hc | hc
      · exact .inl hc
      · exact ih hc

theorem group?_append {g : UInt16} {digits rest : List Char} (hg : IsGroup g digits)
    (h : ∀ c ∈ rest.head?, isHexDigit c = false) : group? (digits ++ rest) = some (g, rest) := by
  obtain ⟨hne, hlen, hdigits, hvalue⟩ := hg
  rw [group?, run?_append hne hlen hdigits h]
  simp [hvalue]

/-- A group in front of a colon is not taken for the start of an IPv4 address. -/
theorem read?_append_colon {digits : List Char} (h : ∀ c ∈ digits, isHexDigit c = true)
    (cs : List Char) : Ipv4.read? (digits ++ ':' :: cs) = none := by
  apply Ipv4.read?_eq_none
  induction digits with
  | nil =>
    have hc : Char.isDigit ':' = false := by decide
    simp [hc]
  | cons d ds ih =>
    have hd := h d (by simp)
    by_cases hdig : d.isDigit = true
    · simpa [hdig] using ih fun c hc => h c (by simp [hc])
    · have hne : d ≠ '.' := by
        rintro rfl
        exact absurd hd (by decide)
      simpa [hdig] using hne

theorem stretch_succ {first : Bool} {room : Nat} {cs body rest : List Char} {g : UInt16}
    (hbody : (if first then some cs else after? ':' cs) = some body)
    (hdotted : (if room = 0 then none else Ipv4.read? body) = none)
    (hgroup : group? body = some (g, rest)) :
    stretch first (room + 1) cs =
      ⟨g :: (stretch false room rest).groups, (stretch false room rest).dotted,
        (stretch false room rest).rest⟩ := by
  rw [stretch, hbody]
  simp only [hdotted, hgroup]

theorem stretch_of_isGroups (first : Bool) {gs : List UInt16} {cs rest : List Char}
    (hgs : IsGroups gs cs) (h : ∀ c ∈ rest.head?, isHexDigit c = false) :
    stretch first gs.length ((if first then [] else [':']) ++ (cs ++ rest)) = ⟨gs, false, rest⟩ := by
  have hcolon : isHexDigit ':' = false := by decide
  have hbody : ∀ (first : Bool) (cs : List Char),
      (if first then some ((if first then [] else [':']) ++ cs)
        else after? ':' ((if first then [] else [':']) ++ cs)) = some cs := by
    intro first cs
    cases first <;> simp
  induction hgs generalizing first with
  | one hg => exact stretch_succ (hbody first _) rfl (group?_append hg h)
  | cons hg hgs ih =>
    have hmore := ih false
    simp only [Bool.false_eq_true, if_false, List.cons_append, List.nil_append] at hmore
    rw [List.append_assoc, List.cons_append, List.length_cons,
      stretch_succ (hbody first _) (by simp [read?_append_colon hg.2.2.1])
        (group?_append hg (by simp [hcolon])), hmore]

theorem parse?_of_isGroups {x : Ipv6} {cs : List Char} (h : IsGroups x.groups cs) :
    parse? cs = some x := by
  have hstretch : stretch true x.groups.length ([] ++ (cs ++ [])) = ⟨x.groups, false, []⟩ :=
    stretch_of_isGroups true h (by simp)
  rw [List.nil_append, List.append_nil, x.length_groups] at hstretch
  simp [parse?, hstretch, x.length_groups]

def renderGroup (g : UInt16) : List Char := Nat.toDigits 16 g.toNat

def renderGroups (gs : List UInt16) : List Char := [':'].intercalate (gs.map renderGroup)

@[simp] theorem renderGroups_singleton (g : UInt16) : renderGroups [g] = renderGroup g := by
  simp [renderGroups]

theorem renderGroups_cons_cons (g g' : UInt16) (gs : List UInt16) :
    renderGroups (g :: g' :: gs) = renderGroup g ++ ':' :: renderGroups (g' :: gs) := by
  simp [renderGroups, List.intercalate_cons_cons]

def render (x : Ipv6) : List Char := renderGroups x.groups

theorem isGroup_renderGroup (g : UInt16) : IsGroup g (renderGroup g) := by
  have hlt : g.toNat < 16 ^ 4 := g.toNat_lt
  exact ⟨Nat.toDigits_ne_nil, (Nat.length_toDigits_le_iff (by decide) (by decide)).2 hlt,
    fun c hc => isHexDigit_of_mem_toDigits hc, hexValue_toDigits _⟩

theorem isGroups_renderGroups {gs : List UInt16} (hne : gs ≠ []) : IsGroups gs (renderGroups gs) := by
  induction gs with
  | nil => exact absurd rfl hne
  | cons g gs ih =>
    cases gs with
    | nil => exact renderGroups_singleton g ▸ .one (isGroup_renderGroup g)
    | cons g' gs =>
      rw [renderGroups_cons_cons]
      exact .cons (isGroup_renderGroup g) (ih (by simp))

theorem isGroups_render (x : Ipv6) : IsGroups x.groups x.render := by
  refine isGroups_renderGroups fun h => ?_
  have hlength := x.length_groups
  simp [h] at hlength

@[simp] theorem parse?_render (x : Ipv6) : parse? x.render = some x :=
  parse?_of_isGroups (isGroups_render x)

end Ipv6
end SenderAuth
