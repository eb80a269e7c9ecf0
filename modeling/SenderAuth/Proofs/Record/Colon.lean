import SenderAuth.Proofs.Record.Directive
import SenderAuth.Spf.Record

/-!
Directives that are written without a colon. A slash is meant to bring in a prefix length, but one that
does not is taken for the start of a domain.
-/
namespace SenderAuth.Spf
open Text

theorem Qualifier.IsSign.notMem {q : Qualifier} {sign : List Char} (h : q.IsSign sign) {c : Char}
    (hc : ofSign? c = none) : c ∉ sign := by
  cases h with
  | written =>
    intro hmem
    obtain rfl := List.mem_singleton.1 hmem
    simp at hc
  | omitted => exact List.not_mem_nil

def Mechanism.lengthSlashes (m : Mechanism) : Nat :=
  (if m.length4.isSome then 1 else 0) + if m.length6.isSome then 2 else 0

theorem slash_notMem_of_readOptionalLength {max : Nat} {digits : List Char} {n : Option Nat}
    (h : readOptionalLength max (some digits) = .ok n) : '/' ∉ digits := by
  rcases readOptionalLength_eq_ok_iff.1 h with ⟨hnone, -⟩ | ⟨text, k, htext, rfl, hread⟩
  · cases hnone
  · cases htext
    obtain ⟨ds, hds, ⟨-, hdigit, -⟩, -⟩ := readLength_eq_ok_iff.1 hread
    have hno : '/' ∉ ds := fun hmem => absurd (hdigit _ hmem) (by decide)
    rcases hds with rfl | rfl
    · exact hno
    · simpa using hno

theorem count_slash_separated {max : Nat} {sep : List Char} {digits : Option (List Char)}
    {n : Option Nat} (h : readOptionalLength max digits = .ok n) :
    (separated sep digits).count '/' = if n.isSome then sep.count '/' else 0 := by
  rw [isSome_of_readOptionalLength h]
  cases digits with
  | none => rfl
  | some ds =>
    have hcount : ds.count '/' = 0 := List.count_eq_zero.2 (slash_notMem_of_readOptionalLength h)
    simp [separated, hcount]

namespace Argument

/-- A target that a slash brings in has a domain when there is a slash more than its lengths take. -/
theorem domain_eq_none_iff_of_target {text : List Char} {t : Target}
    (h : (slash text).target = .ok t) :
    (t.domain = none ↔ ('/' :: text).count '/' = (Mechanism.a t).lengthSlashes) ∧
      ∀ x ∈ t.domain, x.toList.head? = some '/' := by
  obtain ⟨name, four, six, htext, -, -, h4, h6, hdomain, -⟩ := target_eq_ok_iff.1 h
  have htext : '/' :: text = name ++ separated ['/'] four ++ separated ['/', '/'] six := htext
  have hcount : ('/' :: text).count '/' = name.count '/' + (Mechanism.a t).lengthSlashes := by
    rw [htext, List.count_append, List.count_append, count_slash_separated h4,
      count_slash_separated h6, Nat.add_assoc]
    rfl
  cases name with
  | nil =>
    have hnone : t.domain = none := hdomain
    rw [hcount, hnone]
    simp
  | cons c cs =>
    have hsome : t.domain = some (String.ofList (c :: cs)) := hdomain
    obtain rfl : '/' = c := (List.cons.inj htext).1
    rw [hcount, hsome]
    simp

theorem parse?_slash_cons (cs : List Char) : Ipv6.parse? ('/' :: cs) = none := by
  have hhex : isHexDigit '/' = false := by decide
  have hdigit : Char.isDigit '/' = false := by decide
  simp [Ipv6.parse?, Ipv6.stretch, Ipv6.group?, Ipv4.read?, Ipv4.octet?, run?, after?, hhex, hdigit]

theorem not_ip4_slash {text : List Char} {m : Mechanism} : (slash text).ip4 ≠ .ok m := by
  intro h
  obtain ⟨address, digits, ⟨htext, hslash⟩, n, x, -, haddress, -⟩ := ip4_eq_ok_iff.1 h
  have htext : '/' :: text = address ++ separated ['/'] digits := htext
  cases address with
  | nil => cases haddress
  | cons c cs =>
    obtain rfl : '/' = c := (List.cons.inj htext).1
    exact hslash List.mem_cons_self

theorem not_ip6_slash {text : List Char} {m : Mechanism} : (slash text).ip6 ≠ .ok m := by
  intro h
  obtain ⟨address, digits, ⟨htext, -⟩, n, x, -, haddress, -⟩ := ip6_eq_ok_iff.1 h
  have htext : '/' :: text = address ++ separated ['/'] digits := htext
  cases address with
  | nil =>
    have hnone : Ipv6.parse? [] = none := rfl
    rw [hnone] at haddress
    cases haddress
  | cons c cs =>
    obtain rfl : '/' = c := (List.cons.inj htext).1
    rw [parse?_slash_cons] at haddress
    cases haddress

theorem domain_eq_none_iff_of_gives_slash {text : List Char} {m : Mechanism}
    (h : (slash text).Gives m) :
    (m.domain = none ↔ ('/' :: text).count '/' = m.lengthSlashes) ∧
      ∀ x ∈ m.domain, x.toList.head? = some '/' := by
  have hwhole {x : String} (hx : x.toList = (slash text).text) :
      (some x = none ↔ ('/' :: text).count '/' = 0) ∧
        ∀ y ∈ some x, y.toList.head? = some '/' := by
    simp [hx, Argument.text]
  cases m with
  | all => cases h
  | includes x => exact hwhole h.1
  | existsAt x => exact hwhole h.1
  | a t => exact domain_eq_none_iff_of_target h
  | mx t => exact domain_eq_none_iff_of_target h
  | ptr domain =>
    cases domain with
    | none => cases h
    | some x =>
      obtain ⟨⟨text', htext⟩, -⟩ := h
      cases htext
  | ip4 x length => exact absurd h.2 not_ip4_slash
  | ip6 x length => exact absurd h.2 not_ip6_slash

theorem domain_eq_none_of_gives_absent {m : Mechanism} (h : absent.Gives m) :
    m.domain = none ∧ m.lengthSlashes = 0 := by
  cases m with
  | all => exact ⟨rfl, rfl⟩
  | includes x => exact absurd rfl h.2
  | existsAt x => exact absurd rfl h.2
  | a t =>
    cases h
    exact ⟨rfl, rfl⟩
  | mx t =>
    cases h
    exact ⟨rfl, rfl⟩
  | ptr domain =>
    cases domain with
    | none => exact ⟨rfl, rfl⟩
    | some x => exact absurd rfl h.2.2
  | ip4 x length => exact absurd rfl h.1
  | ip6 x length => exact absurd rfl h.1

end Argument

/-- A term without a colon that is read as a directive has a domain when it holds a slash that does not
bring in a prefix length, and the domain then starts with that slash. -/
theorem domain_eq_none_iff_of_no_colon {term : List Char} {d : Directive} (hcolon : ':' ∉ term)
    (hread : Directive.read term = .ok d) :
    (d.mechanism.domain = none ↔ term.count '/' = d.mechanism.lengthSlashes) ∧
      ∀ x ∈ d.mechanism.domain, x.toList.head? = some '/' := by
  obtain ⟨rest, name, arg, hstrip, hsplit, -, hgives⟩ := Directive.read_eq_ok_iff.1 hread
  obtain ⟨sign, hsign, rfl⟩ := Qualifier.exists_sign_of_strip hstrip
  obtain ⟨rfl, -, hcut⟩ := Argument.split_eq_iff.1 hsplit
  have hnotColon : ∀ text, arg ≠ .colon text := by
    rintro text rfl
    exact hcolon (by simp [Argument.source])
  obtain ⟨hname, -⟩ := hcut.resolve_left (not_exists.2 hnotColon)
  have hcount : (sign ++ (name ++ arg.source)).count '/' = arg.source.count '/' := by
    rw [List.count_append, List.count_append, List.count_eq_zero.2 (hsign.notMem rfl),
      List.count_eq_zero.2 hname, Nat.zero_add, Nat.zero_add]
  rw [hcount]
  cases arg with
  | colon text => exact absurd rfl (hnotColon text)
  | slash text => exact Argument.domain_eq_none_iff_of_gives_slash hgives
  | absent =>
    obtain ⟨hnone, hslashes⟩ := Argument.domain_eq_none_of_gives_absent hgives
    simp [hnone, hslashes, Argument.source]

theorem domain_eq_none_iff_of_no_colon_mx :
    ':' ∉ "-MX/x/24//064".toList ∧
      ∃ d, Directive.read "-MX/x/24//064".toList = .ok d ∧ d.mechanism.domain = some "/x" ∧
        (d.mechanism.domain = none ↔
          "-MX/x/24//064".toList.count '/' = d.mechanism.lengthSlashes) := by
  have hcolon : ':' ∉ "-MX/x/24//064".toList := by decide
  have hread : Directive.read "-MX/x/24//064".toList =
      .ok ⟨.fail, .mx ⟨some "/x", some 24, some 64⟩⟩ := by decide
  exact ⟨hcolon, _, hread, rfl, (domain_eq_none_iff_of_no_colon hcolon hread).1⟩

/-- The slash form of an include is read as one of a domain that starts with a slash. -/
theorem not_domain_eq_none_of_no_colon : ¬ ∀ (s : String) (term : List Char) (d : Directive),
    term ∈ words s.toList → ':' ∉ term → Term.read term = .directive d →
      d ∈ (Record.parse s).directives → d.mechanism.domain = none := by
  intro h
  have hnone := h "v=spf1 include/24 -all" "include/24".toList ⟨.pass, .includes "/24"⟩
    (by decide) (by decide) (by decide) (by decide)
  cases hnone

end SenderAuth.Spf
