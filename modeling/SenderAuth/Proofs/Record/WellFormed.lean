import SenderAuth.Proofs.Record.Directive
import SenderAuth.Spf.Record

/-!
What a record that was read can hold. Its values are there and free of white space, its lengths fit
their address family, and a slash inside the domain of a target can be told from those around it.
-/
namespace SenderAuth.Spf
open Text

/-- A domain with slashes comes with an IPv4 length, and the slash in front of that is the last one and
no part of a double slash. -/
def Target.Separable (t : Target) : Prop :=
  ∀ x ∈ t.domain, '/' ∈ x.toList → t.cidr4.isSome = true ∧ Undoubled '/' (x.toList ++ ['/'])

theorem isValue_ofList {cs : List Char} (hne : cs ≠ []) (hblank : ∀ c ∈ cs, isBlank c = false) :
    IsValue (String.ofList cs) := by
  refine ⟨fun h => hne ?_, by simpa using hblank⟩
  rw [← String.toList_ofList (l := cs), h, String.toList_empty]

namespace Argument

theorem wellFormed_of_target {arg : Argument} {t : Target} (h : arg.target = .ok t)
    (hblank : ∀ c ∈ arg.text, isBlank c = false) :
    (Mechanism.a t).WellFormed ∧ t.Separable := by
  obtain ⟨name, four, six, htext, hundoubled, hslash, h4, h6, hdomain, -⟩ := target_eq_ok_iff.1 h
  have hname : ∀ x ∈ t.domain, name ≠ [] ∧ x = String.ofList name := by
    intro x hx
    rw [hdomain, Option.mem_def, Option.ite_none_left_eq_some] at hx
    exact ⟨hx.1, (Option.some.inj hx.2).symm⟩
  refine ⟨⟨fun x hx => ?_, le_of_readOptionalLength h4, le_of_readOptionalLength h6⟩,
    fun x hx hmem => ?_⟩
  · obtain ⟨hne, rfl⟩ := hname x hx
    exact isValue_ofList hne fun c hc => hblank c (by simp [htext, hc])
  · obtain ⟨-, rfl⟩ := hname x hx
    rw [String.toList_ofList] at hmem ⊢
    rw [isSome_of_readOptionalLength h4]
    cases four with
    | none => exact absurd hmem hslash
    | some digits =>
      have hcut : Undoubled '/' (name ++ ['/'] ++
          (digits ++ if six.isSome then ['/'] else [])) := by
        simpa [separated] using hundoubled
      exact ⟨rfl, hcut.left⟩

theorem wellFormed_of_gives {arg : Argument} {m : Mechanism} (h : arg.Gives m)
    (hblank : ∀ c ∈ arg.text, isBlank c = false) :
    m.WellFormed ∧ ∀ t ∈ m.target?, t.Separable := by
  have hvalue {x : String} (hx : x.toList = arg.text ∧ arg.text ≠ []) :
      ∀ y ∈ some x, IsValue y := by
    intro y hy
    cases hy
    rw [← String.ofList_toList (s := x), hx.1]
    exact isValue_ofList hx.2 hblank
  cases m with
  | all => exact ⟨⟨nofun, nofun, nofun⟩, nofun⟩
  | includes x => exact ⟨⟨hvalue h, nofun, nofun⟩, nofun⟩
  | existsAt x => exact ⟨⟨hvalue h, nofun, nofun⟩, nofun⟩
  | a t =>
    obtain ⟨hwf, hsep⟩ := wellFormed_of_target h hblank
    exact ⟨hwf, fun t' ht' => by cases ht'; exact hsep⟩
  | mx t =>
    obtain ⟨⟨hdomain, h4, h6⟩, hsep⟩ := wellFormed_of_target h hblank
    exact ⟨⟨hdomain, h4, h6⟩, fun t' ht' => by cases ht'; exact hsep⟩
  | ptr domain =>
    cases domain with
    | none => exact ⟨⟨nofun, nofun, nofun⟩, nofun⟩
    | some x => exact ⟨⟨hvalue h.2, nofun, nofun⟩, nofun⟩
  | ip4 x length =>
    obtain ⟨address, digits, -, n, y, hlength, -, hm⟩ := ip4_eq_ok_iff.1 h.2
    cases hm
    exact ⟨⟨nofun, le_of_readOptionalLength hlength, nofun⟩, nofun⟩
  | ip6 x length =>
    obtain ⟨address, digits, -, n, y, hlength, -, hm⟩ := ip6_eq_ok_iff.1 h.2
    cases hm
    exact ⟨⟨nofun, nofun, le_of_readOptionalLength hlength⟩, nofun⟩

end Argument

theorem Directive.wellFormed_of_read {term : List Char} {d : Directive}
    (hblank : ∀ c ∈ term, isBlank c = false) (h : Directive.read term = .ok d) :
    d.mechanism.WellFormed ∧ ∀ t ∈ d.mechanism.target?, t.Separable := by
  obtain ⟨rest, name, arg, hstrip, hsplit, -, hgives⟩ := Directive.read_eq_ok_iff.1 h
  obtain ⟨sign, -, rfl⟩ := Qualifier.exists_sign_of_strip hstrip
  obtain ⟨rfl, -, -⟩ := Argument.split_eq_iff.1 hsplit
  refine Argument.wellFormed_of_gives hgives fun c hc => hblank c ?_
  have hsource : c ∈ arg.source := by
    cases arg with
    | absent => exact hc
    | colon text => exact List.mem_cons_of_mem _ hc
    | slash text => exact hc
  simp [hsource]

theorem Term.isValue_of_read {term : List Char} {m : Modifier} {value : String}
    (hblank : ∀ c ∈ term, isBlank c = false) (h : Term.read term = .modifier m value) :
    IsValue value := by
  obtain ⟨name, rest, hsplit, -, hrest, rfl⟩ := Term.read_eq_modifier_iff.1 h
  obtain ⟨rfl, -⟩ := splitModifier?_eq_some_iff.1 hsplit
  exact isValue_ofList hrest fun c hc => hblank c (by simp [hc])

end SenderAuth.Spf
