import SenderAuth.Proofs.Record.Argument

/-!
Which terms are read as a directive, and as which one.
-/
namespace SenderAuth.Spf
open Text

theorem map_eq_ok_iff {ε α β : Type} {x : Except ε α} {f : α → β} {b : β} :
    x.map f = .ok b ↔ ∃ a, x = .ok a ∧ f a = b := by
  cases x <;> simp [Except.map]

namespace Qualifier

@[simp] theorem strip_sign_cons (q : Qualifier) (cs : List Char) :
    strip (q.sign :: cs) = (q, cs) := by
  simp [strip]

theorem strip_of_head {cs : List Char} (h : ∀ c ∈ cs.head?, ofSign? c = none) :
    strip cs = (pass, cs) := by
  cases cs with
  | nil => rfl
  | cons c cs => simp [strip, h c (by simp)]

theorem exists_sign_of_strip {cs rest : List Char} {q : Qualifier} (h : strip cs = (q, rest)) :
    ∃ sign, q.IsSign sign ∧ cs = sign ++ rest := by
  unfold strip at h
  split at h
  · rename_i q' hq
    cases h
    obtain ⟨c, hc, hsign⟩ := Option.bind_eq_some_iff.1 hq
    obtain rfl := ofSign?_eq_some_iff.1 hsign
    obtain ⟨ds, rfl⟩ := List.head?_eq_some_iff.1 hc
    exact ⟨_, .written q, rfl⟩
  · cases h
    exact ⟨[], .omitted, rfl⟩

end Qualifier

namespace Argument

def source : Argument → List Char
  | absent => []
  | colon text => ':' :: text
  | slash text => '/' :: text

theorem split_eq_iff {cs name : List Char} {arg : Argument} :
    split cs = (name, arg) ↔ cs = name ++ arg.source ∧ ':' ∉ name ∧
      ((∃ text, arg = colon text) ∨ '/' ∉ name ∧ ':' ∉ arg.source) := by
  constructor
  · intro h
    unfold split at h
    split at h
    · rename_i hcolon
      cases h
      have hcs := splitFirst?_eq_some_iff.1 hcolon
      exact ⟨hcs.1, hcs.2, .inl ⟨_, rfl⟩⟩
    · rename_i hcolon
      have hno := splitFirst?_eq_none_iff.1 hcolon
      split at h
      · rename_i hslash
        cases h
        obtain ⟨rfl, hname⟩ := splitFirst?_eq_some_iff.1 hslash
        rw [List.mem_append, not_or] at hno
        exact ⟨rfl, hno.1, .inr ⟨hname, hno.2⟩⟩
      · rename_i hslash
        cases h
        exact ⟨(List.append_nil _).symm, hno, .inr ⟨splitFirst?_eq_none_iff.1 hslash, by simp [source]⟩⟩
  · rintro ⟨rfl, hname, harg⟩
    cases arg with
    | colon text =>
      have hcolon := splitFirst?_eq_some_iff.2 ⟨(rfl : name ++ ':' :: text = _), hname⟩
      rw [split, source, hcolon]
    | slash text =>
      obtain ⟨hslash, hno⟩ := harg.resolve_left (by simp)
      have hcolon : splitFirst? ':' (name ++ (slash text).source) = none :=
        splitFirst?_eq_none_iff.2 (by simp [hname, hno])
      rw [split, hcolon, source, splitFirst?_eq_some_iff.2 ⟨rfl, hslash⟩]
    | absent =>
      obtain ⟨hslash, -⟩ := harg.resolve_left (by simp)
      rw [source, List.append_nil, split, splitFirst?_eq_none_iff.2 hname,
        splitFirst?_eq_none_iff.2 hslash]

/-- When a mechanism is what the argument says. -/
def Gives (arg : Argument) : Mechanism → Prop
  | .all => arg = absent
  | .includes x | .existsAt x => x.toList = arg.text ∧ arg.text ≠ []
  | .a t | .mx t => arg.target = .ok t
  | .ptr none => arg = absent
  | .ptr (some x) => (∃ text, arg = colon text) ∧ x.toList = arg.text ∧ arg.text ≠ []
  | .ip4 x length => arg ≠ absent ∧ arg.ip4 = .ok (.ip4 x length)
  | .ip6 x length => arg ≠ absent ∧ arg.ip6 = .ok (.ip6 x length)

theorem mechanism_kind_eq_ok_iff {arg : Argument} {m : Mechanism} :
    arg.mechanism m.kind = .ok m ↔ arg.Gives m := by
  cases m with
  | all => cases arg <;> simp [Mechanism.kind, mechanism, Gives]
  | includes x => simp [Mechanism.kind, mechanism, Gives, map_eq_ok_iff, domain_eq_ok_iff]
  | existsAt x => simp [Mechanism.kind, mechanism, Gives, map_eq_ok_iff, domain_eq_ok_iff]
  | a t => simp [Mechanism.kind, mechanism, Gives, map_eq_ok_iff]
  | mx t => simp [Mechanism.kind, mechanism, Gives, map_eq_ok_iff]
  | ptr domain =>
    cases arg <;> cases domain <;>
      simp [Mechanism.kind, mechanism, Gives, map_eq_ok_iff, domain_eq_ok_iff]
  | ip4 x length => cases arg <;> simp [Mechanism.kind, mechanism, Gives]
  | ip6 x length => cases arg <;> simp [Mechanism.kind, mechanism, Gives]

theorem kind_of_ip4 {arg : Argument} {m : Mechanism} (h : arg.ip4 = .ok m) : m.kind = .ip4 := by
  obtain ⟨address, digits, -, n, x, -, -, rfl⟩ := ip4_eq_ok_iff.1 h
  rfl

theorem kind_of_ip6 {arg : Argument} {m : Mechanism} (h : arg.ip6 = .ok m) : m.kind = .ip6 := by
  obtain ⟨address, digits, -, n, x, -, -, rfl⟩ := ip6_eq_ok_iff.1 h
  rfl

theorem kind_of_mechanism {arg : Argument} {k : MechanismKind} {m : Mechanism}
    (h : arg.mechanism k = .ok m) : k = m.kind := by
  have hmap {α : Type} {x : Except ArgumentFault α} {f : α → Mechanism}
      (hx : x.map f = .ok m) (hf : ∀ a, k = (f a).kind) : k = m.kind := by
    obtain ⟨a, -, rfl⟩ := map_eq_ok_iff.1 hx
    exact hf a
  cases k with
  | all => cases arg <;> cases h; rfl
  | includes => exact hmap h fun _ => rfl
  | existsAt => exact hmap h fun _ => rfl
  | a => exact hmap h fun _ => rfl
  | mx => exact hmap h fun _ => rfl
  | ptr =>
    cases arg with
    | absent => cases h; rfl
    | slash text => cases h
    | colon text => exact hmap h fun _ => rfl
  | ip4 =>
    cases arg with
    | absent => cases h
    | colon text => exact (kind_of_ip4 h).symm
    | slash text => exact (@kind_of_ip4 (slash text) m h).symm
  | ip6 =>
    cases arg with
    | absent => cases h
    | colon text => exact (kind_of_ip6 h).symm
    | slash text => exact (@kind_of_ip6 (slash text) m h).symm

theorem mechanism_eq_ok_iff {arg : Argument} {k : MechanismKind} {m : Mechanism} :
    arg.mechanism k = .ok m ↔ k = m.kind ∧ arg.Gives m := by
  constructor
  · intro h
    obtain rfl := kind_of_mechanism h
    exact ⟨rfl, mechanism_kind_eq_ok_iff.1 h⟩
  · rintro ⟨rfl, h⟩
    exact mechanism_kind_eq_ok_iff.2 h

end Argument

/-- All that there is to a term that is read as a directive. -/
theorem Directive.read_eq_ok_iff {term : List Char} {d : Directive} :
    Directive.read term = .ok d ↔ ∃ rest name arg, Qualifier.strip term = (d.qualifier, rest) ∧
      Argument.split rest = (name, arg) ∧ folded name = d.mechanism.kind.name ∧
      arg.Gives d.mechanism := by
  rcases hstrip : Qualifier.strip term with ⟨qualifier, rest⟩
  rcases hsplit : Argument.split rest with ⟨name, arg⟩
  simp only [Directive.read, hstrip, hsplit]
  constructor
  · intro h
    split at h
    · cases h
    · rename_i k hk
      split at h
      · rename_i m hm
        cases h
        obtain ⟨rfl, hgives⟩ := Argument.mechanism_eq_ok_iff.1 hm
        exact ⟨rest, name, arg, rfl, hsplit, MechanismKind.ofName?_eq_some_iff.1 hk, hgives⟩
      · cases h
  · rintro ⟨rest', name', arg', hrest, hsplit', hname, hgives⟩
    cases hrest
    rw [hsplit] at hsplit'
    cases hsplit'
    rw [hname, MechanismKind.ofName?_name]
    simp only [Argument.mechanism_eq_ok_iff.2 ⟨rfl, hgives⟩]

end SenderAuth.Spf
