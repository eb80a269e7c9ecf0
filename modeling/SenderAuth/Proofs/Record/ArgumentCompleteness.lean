import SenderAuth.Proofs.Record.WellFormed

/-!
An argument that is written by the grammar is read as the argument of its mechanism.
-/
namespace SenderAuth.Spf
open Text

theorem readOptionalLength_of_isLength {max : Nat} {n : Option Nat} {digits : Option (List Char)}
    (h : IsLength n digits) (hmax : max ≤ 255) (hn : ∀ k ∈ n, k ≤ max) :
    readOptionalLength max digits = .ok n := by
  cases h with
  | absent => rfl
  | present h =>
    have hle := hn _ rfl
    exact readOptionalLength_eq_ok_iff.2 (.inr ⟨_, _, rfl, rfl,
      readLength_eq_ok_iff.2 ⟨_, .inl rfl, h, Nat.le_trans hle hmax, hle⟩⟩)

theorem IsLength.notMem {n : Option Nat} {digits : List Char} (h : IsLength n (some digits))
    {c : Char} (hc : c.isDigit = false) : c ∉ digits := by
  cases h with
  | present h =>
    intro hmem
    rw [h.2.1 c hmem] at hc
    cases hc

theorem IsLength.notMem_separated {n : Option Nat} {digits : Option (List Char)}
    (h : IsLength n digits) {c : Char} (hc : c.isDigit = false) {sep : List Char} (hsep : c ∉ sep) :
    c ∉ separated sep digits := by
  cases digits with
  | none => exact List.not_mem_nil
  | some digits => simp [separated, hsep, h.notMem hc]

theorem IsLength.ne_nil {n : Option Nat} {digits : List Char} (h : IsLength n (some digits)) :
    digits ≠ [] := by
  cases h with
  | present h => exact h.1

theorem IsLength.isSome_eq {n : Option Nat} {digits : Option (List Char)} (h : IsLength n digits) :
    n.isSome = digits.isSome := by
  cases h <;> rfl

theorem undoubled_append_singleton {sep : Char} {cs : List Char} (h : sep ∉ cs) :
    Undoubled sep (cs ++ [sep]) := by
  refine List.isChain_append.2 ⟨undoubled_of_notMem h, List.isChain_singleton _, ?_⟩
  rintro c hc d - ⟨rfl, -⟩
  exact h (List.mem_of_getLast? hc)

theorem Undoubled.append {sep : Char} {as bs : List Char} (has : Undoubled sep as)
    (hbs : Undoubled sep bs) (hhead : bs.head? ≠ some sep) : Undoubled sep (as ++ bs) := by
  refine List.isChain_append.2 ⟨has, hbs, ?_⟩
  rintro c - d hd ⟨-, rfl⟩
  exact hhead hd

namespace Target

def name (t : Target) : List Char := t.domain.elim [] String.toList

theorem domain_eq_of_isValue {t : Target} (h : ∀ x ∈ t.domain, IsValue x) :
    t.domain = if t.name = [] then none else some (String.ofList t.name) := by
  cases hx : t.domain with
  | none => simp [name, hx]
  | some x => simp [name, hx, (h x hx).toList_ne_nil]

namespace Separable
variable {t : Target}

theorem isSome_and_undoubled (h : t.Separable) (hslash : '/' ∈ t.name) :
    t.cidr4.isSome = true ∧ Undoubled '/' (t.name ++ ['/']) := by
  cases hx : t.domain with
  | none => simp [name, hx] at hslash
  | some x =>
    simp only [name, hx, Option.elim_some] at hslash ⊢
    exact h x hx hslash

theorem undoubled_name (h : t.Separable) : Undoubled '/' (t.name ++ ['/']) := by
  by_cases hslash : '/' ∈ t.name
  · exact (h.isSome_and_undoubled hslash).2
  · exact undoubled_append_singleton hslash

/-- No double slash comes up before the one in front of the IPv6 length. -/
theorem undoubled (h : t.Separable) {four : Option (List Char)} (h4 : IsLength t.cidr4 four) :
    Undoubled '/' (t.name ++ separated ['/'] four ++ ['/']) := by
  cases four with
  | none => simpa [separated] using h.undoubled_name
  | some digits =>
    have hno : '/' ∉ digits := h4.notMem (by decide)
    have hhead : (digits ++ ['/']).head? ≠ some '/' := by
      rw [List.head?_append_of_ne_nil _ h4.ne_nil]
      exact fun hmem => hno (List.mem_of_head? hmem)
    simpa [separated] using h.undoubled_name.append (undoubled_append_singleton hno) hhead

/-- The slash in front of the IPv4 length is the last one, and without that length there is none. -/
theorem slash_notMem (h : t.Separable) {four : Option (List Char)} (h4 : IsLength t.cidr4 four) :
    '/' ∉ four.getD t.name := by
  cases four with
  | none =>
    intro hmem
    have hsome := (h.isSome_and_undoubled hmem).1
    rw [h4.isSome_eq] at hsome
    cases hsome
  | some digits => exact h4.notMem (by decide)

end Separable
end Target

namespace Argument

theorem exists_source_eq {cs : List Char} (h : ∀ c ∈ cs.head?, c = '/') :
    ∃ arg : Argument, arg.source = cs ∧ arg.text = cs ∧ ∀ text, arg ≠ colon text := by
  cases cs with
  | nil => exact ⟨absent, rfl, rfl, nofun⟩
  | cons c cs =>
    obtain rfl := h c rfl
    exact ⟨slash cs, rfl, rfl, nofun⟩

theorem target_of_isLength {arg : Argument} {t : Target} (hdomain : ∀ x ∈ t.domain, IsValue x)
    (hsep : t.Separable) (hle4 : ∀ n ∈ t.cidr4, n ≤ 32) (hle6 : ∀ n ∈ t.cidr6, n ≤ 128)
    {four six : Option (List Char)} (h4 : IsLength t.cidr4 four) (h6 : IsLength t.cidr6 six)
    (htext : arg.text = t.name ++ separated ['/'] four ++ separated ['/', '/'] six)
    (harg : t.name = [] → ∀ text, arg ≠ colon text) : arg.target = .ok t := by
  have hundoubled :
      Undoubled '/' (t.name ++ separated ['/'] four ++ if six.isSome then ['/'] else []) := by
    cases six with
    | none => simpa using (hsep.undoubled h4).left
    | some _ => exact hsep.undoubled h4
  exact target_eq_ok_iff.2 ⟨t.name, four, six, htext, hundoubled, hsep.slash_notMem h4,
    readOptionalLength_of_isLength h4 (by decide) hle4,
    readOptionalLength_of_isLength h6 (by decide) hle6, Target.domain_eq_of_isValue hdomain, harg⟩

theorem target_of_isArgument {t : Target} {cs : List Char} (hwf : (Mechanism.a t).WellFormed)
    (hsep : t.Separable) (h : t.IsArgument cs) :
    ∃ arg : Argument, arg.source = cs ∧ ((∃ text, arg = colon text) ∨ ':' ∉ cs) ∧
      arg.target = .ok t := by
  obtain ⟨four, six, h4, h6, rfl⟩ := h
  cases hx : t.domain with
  | some x =>
    have hne : t.name ≠ [] := by simpa [Target.name, hx] using (hwf.domain x hx).toList_ne_nil
    have hread : (colon (t.name ++ separated ['/'] four ++ separated ['/', '/'] six)).target =
        .ok t :=
      target_of_isLength hwf.domain hsep hwf.length4 hwf.length6 h4 h6 rfl
        fun hnil => absurd hnil hne
    exact ⟨_, by simp [source, renderDomain, Target.name, hx], .inl ⟨_, rfl⟩, hread⟩
  | none =>
    have hhead : ∀ c ∈ (separated ['/'] four ++ separated ['/', '/'] six).head?, c = '/' := by
      cases four <;> cases six <;> simp [separated]
    have hcolon : ':' ∉ separated ['/'] four ++ separated ['/', '/'] six := by
      simp [h4.notMem_separated, h6.notMem_separated]
    obtain ⟨arg, hsource, htext, hno⟩ := exists_source_eq hhead
    have hread : arg.target = .ok t :=
      target_of_isLength hwf.domain hsep hwf.length4 hwf.length6 h4 h6
        (by simp [htext, Target.name, hx]) fun _ => hno
    exact ⟨arg, by simp [hsource, renderDomain], .inr (by simpa [renderDomain] using hcolon),
      hread⟩

/-- An argument that is written by the grammar gives its mechanism. -/
theorem gives_of_isArgument {m : Mechanism} {cs : List Char} (hwf : m.WellFormed)
    (hsep : ∀ t ∈ m.target?, t.Separable) (h : m.IsArgument cs) :
    ∃ arg : Argument, arg.source = cs ∧ ((∃ text, arg = colon text) ∨ ':' ∉ cs) ∧ arg.Gives m := by
  cases m with
  | all =>
    obtain rfl := h
    exact ⟨absent, rfl, .inr (by simp), rfl⟩
  | includes x =>
    obtain rfl := h
    exact ⟨colon x.toList, rfl, .inl ⟨_, rfl⟩, rfl, (hwf.domain x rfl).toList_ne_nil⟩
  | existsAt x =>
    obtain rfl := h
    exact ⟨colon x.toList, rfl, .inl ⟨_, rfl⟩, rfl, (hwf.domain x rfl).toList_ne_nil⟩
  | a t => exact target_of_isArgument hwf (hsep t rfl) h
  | mx t => exact target_of_isArgument ⟨hwf.domain, hwf.length4, hwf.length6⟩ (hsep t rfl) h
  | ptr domain =>
    obtain rfl := h
    cases domain with
    | none => exact ⟨absent, rfl, .inr (by simp [renderDomain]), rfl⟩
    | some x =>
      exact ⟨colon x.toList, rfl, .inl ⟨_, rfl⟩, ⟨_, rfl⟩, rfl, (hwf.domain x rfl).toList_ne_nil⟩
  | ip4 x length =>
    obtain ⟨digits, hlength, rfl⟩ := h
    have hslash : '/' ∉ x.render := by
      intro hmem
      rcases Ipv4.eq_dot_or_isDigit_of_mem_render hmem with hc | hc <;> revert hc <;> decide
    have hread := readOptionalLength_of_isLength hlength (by decide) hwf.length4
    exact ⟨colon _, rfl, .inl ⟨_, rfl⟩, by simp,
      ip4_eq_ok_iff.2 ⟨x.render, digits, ⟨rfl, hslash⟩, length, x, hread, Ipv4.parse?_render x, rfl⟩⟩
  | ip6 x length =>
    obtain ⟨groups, digits, hgroups, hlength, rfl⟩ := h
    have hslash : '/' ∉ digits.getD groups := by
      cases digits with
      | none =>
        intro hmem
        rcases hgroups.eq_colon_or_isHexDigit_of_mem hmem with hc | hc <;> revert hc <;> decide
      | some ds => exact hlength.notMem (by decide)
    have hread := readOptionalLength_of_isLength hlength (by decide) hwf.length6
    exact ⟨colon _, rfl, .inl ⟨_, rfl⟩, by simp,
      ip6_eq_ok_iff.2 ⟨groups, digits, ⟨rfl, hslash⟩, length, x, hread,
        Ipv6.parse?_of_isGroups hgroups, rfl⟩⟩

end Argument
end SenderAuth.Spf
