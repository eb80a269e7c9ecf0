import SenderAuth.Proofs.Record.Directive
import SenderAuth.Spf.Record

/-!
Where the prefix lengths of a directive stand in its term. They come last, the IPv4 length before the IPv6
length, and each is written in decimal digits. A plus may stand in front of the digits, so a length need not be
plain.
-/
namespace SenderAuth.Spf
open Text

/-- The digits of a length that need not be there, as they are read: with a plus in front or without. -/
inductive IsSignedLength : Option Nat → Option (List Char) → Prop
  | absent : IsSignedLength none none
  | plain {n : Nat} {digits : List Char} (h : IsDecimal n digits) :
      IsSignedLength (some n) (some digits)
  | plus {n : Nat} {digits : List Char} (h : IsDecimal n digits) :
      IsSignedLength (some n) (some ('+' :: digits))

theorem isSignedLength_of_readOptionalLength {max : Nat} {text : Option (List Char)} {n : Option Nat}
    (h : readOptionalLength max text = .ok n) : IsSignedLength n text := by
  rcases readOptionalLength_eq_ok_iff.1 h with ⟨rfl, rfl⟩ | ⟨cs, k, rfl, rfl, hread⟩
  · exact .absent
  · obtain ⟨digits, hcs, hdigits, -, -⟩ := readLength_eq_ok_iff.1 hread
    rcases hcs with rfl | rfl
    · exact .plain hdigits
    · exact .plus hdigits

/-- Without a plus there are no more than the digits. -/
theorem IsSignedLength.isDecimal {n : Nat} {text : Option (List Char)} (h : IsSignedLength (some n) text)
    (hplus : '+' ∉ text.getD []) : ∃ digits, text = some digits ∧ IsDecimal n digits := by
  cases h with
  | plain hdigits => exact ⟨_, rfl, hdigits⟩
  | plus hdigits => exact absurd List.mem_cons_self hplus

/-- The length stands in the term in digits alone, behind a slash, and with them the term or what is in front
of a double slash ends. -/
def IsPlainIn (n : Nat) (term : List Char) : Prop :=
  ∃ before digits after, term = before ++ '/' :: (digits ++ after) ∧ IsDecimal n digits ∧
    (after = [] ∨ ['/', '/'] <+: after)

/-- The slashes in front of an IPv6 length: two where an IPv4 length can come before it. -/
def Mechanism.slashes6 : Mechanism → List Char
  | ip6 .. => ['/']
  | _ => ['/', '/']

namespace Argument

theorem exists_source_eq_append_text (arg : Argument) : ∃ lead, arg.source = lead ++ arg.text := by
  cases arg with
  | absent => exact ⟨[], rfl⟩
  | colon text => exact ⟨[':'], rfl⟩
  | slash text => exact ⟨[], rfl⟩

theorem exists_lengths_of_target {arg : Argument} {t : Target} (h : arg.target = .ok t) :
    ∃ lead four six, arg.text = lead ++ (separated ['/'] four ++ separated ['/', '/'] six) ∧
      IsSignedLength t.cidr4 four ∧ IsSignedLength t.cidr6 six := by
  obtain ⟨name, four, six, htext, -, -, h4, h6, -, -⟩ := target_eq_ok_iff.1 h
  refine ⟨name, four, six, ?_, isSignedLength_of_readOptionalLength h4,
    isSignedLength_of_readOptionalLength h6⟩
  rw [htext, List.append_assoc]

theorem exists_lengths_of_gives {arg : Argument} {m : Mechanism} (h : arg.Gives m) :
    ∃ lead four six, arg.text = lead ++ (separated ['/'] four ++ separated m.slashes6 six) ∧
      IsSignedLength m.length4 four ∧ IsSignedLength m.length6 six := by
  have hbare : ∃ lead four six, arg.text = lead ++ (separated ['/'] four ++ separated ['/', '/'] six) ∧
      IsSignedLength none four ∧ IsSignedLength none six :=
    ⟨arg.text, none, none, by simp [separated], .absent, .absent⟩
  cases m with
  | all => exact hbare
  | includes x => exact hbare
  | existsAt x => exact hbare
  | ptr domain => exact hbare
  | a t => exact exists_lengths_of_target h
  | mx t => exact exists_lengths_of_target h
  | ip4 x length =>
    obtain ⟨address, digits, ⟨htext, -⟩, n, y, hlength, -, hm⟩ := ip4_eq_ok_iff.1 h.2
    cases hm
    exact ⟨address, digits, none, by simp [htext, separated],
      isSignedLength_of_readOptionalLength hlength, .absent⟩
  | ip6 x length =>
    obtain ⟨address, digits, ⟨htext, -⟩, n, y, hlength, -, hm⟩ := ip6_eq_ok_iff.1 h.2
    cases hm
    exact ⟨address, none, digits, by simp [htext, separated, Mechanism.slashes6], .absent,
      isSignedLength_of_readOptionalLength hlength⟩

end Argument

/-- The lengths of a directive are at the end of its term, written in these texts. -/
structure Directive.EndsIn (d : Directive) (term : List Char) (four six : Option (List Char)) :
    Prop where
  term : ∃ lead, term = lead ++ (separated ['/'] four ++ separated d.mechanism.slashes6 six)
  length4 : IsSignedLength d.mechanism.length4 four
  length6 : IsSignedLength d.mechanism.length6 six

namespace Directive.EndsIn
variable {d : Directive} {term : List Char} {four six : Option (List Char)}

theorem isPlainIn_length4 (h : d.EndsIn term four six) (hplus : '+' ∉ four.getD []) :
    ∀ n ∈ d.mechanism.length4, IsPlainIn n term := by
  intro n hn
  have h4 := h.length4
  rw [Option.mem_def.1 hn] at h4
  obtain ⟨digits, rfl, hdigits⟩ := h4.isDecimal hplus
  obtain ⟨lead, hterm⟩ := h.term
  refine ⟨lead, digits, separated d.mechanism.slashes6 six, by simp [hterm, separated], hdigits, ?_⟩
  cases six with
  | none => exact .inl rfl
  | some text =>
    -- an IPv6 address has no IPv4 length
    have hslashes : d.mechanism.slashes6 = ['/', '/'] := by
      cases hm : d.mechanism with
      | ip6 => simp [hm, Mechanism.length4] at hn
      | _ => rfl
    rw [hslashes]
    exact .inr (List.prefix_append ['/', '/'] text)

theorem isPlainIn_length6 (h : d.EndsIn term four six) (hplus : '+' ∉ six.getD []) :
    ∀ n ∈ d.mechanism.length6, IsPlainIn n term := by
  intro n hn
  have h6 := h.length6
  rw [Option.mem_def.1 hn] at h6
  obtain ⟨digits, rfl, hdigits⟩ := h6.isDecimal hplus
  obtain ⟨lead, hterm⟩ := h.term
  obtain ⟨slashes, hslashes⟩ : ∃ slashes, d.mechanism.slashes6 = slashes ++ ['/'] := by
    cases d.mechanism with
    | ip6 => exact ⟨[], rfl⟩
    | _ => exact ⟨['/'], rfl⟩
  exact ⟨lead ++ (separated ['/'] four ++ slashes), digits, [], by simp [hterm, separated, hslashes],
    hdigits, .inl rfl⟩

end Directive.EndsIn

theorem Directive.exists_endsIn_of_read {term : List Char} {d : Directive}
    (h : Directive.read term = .ok d) : ∃ four six, d.EndsIn term four six := by
  obtain ⟨rest, name, arg, hstrip, hsplit, -, hgives⟩ := Directive.read_eq_ok_iff.1 h
  obtain ⟨sign, -, rfl⟩ := Qualifier.exists_sign_of_strip hstrip
  obtain ⟨rfl, -, -⟩ := Argument.split_eq_iff.1 hsplit
  obtain ⟨before, hsource⟩ := arg.exists_source_eq_append_text
  obtain ⟨lead, four, six, htext, h4, h6⟩ := Argument.exists_lengths_of_gives hgives
  refine ⟨four, six, ⟨sign ++ (name ++ (before ++ lead)), ?_⟩, h4, h6⟩
  rw [hsource, htext]
  simp only [List.append_assoc]

/-- A length is written behind a slash in decimal digits, with which its term ends or comes to a double
slash, and a plus in front of the digits is all that can keep it from being plain. -/
theorem lengths_signed_of_read {term : List Char} {d : Directive} (h : Directive.read term = .ok d) :
    ∃ four six, d.EndsIn term four six ∧
      ('+' ∉ four.getD [] → ∀ n ∈ d.mechanism.length4, IsPlainIn n term) ∧
      ('+' ∉ six.getD [] → ∀ n ∈ d.mechanism.length6, IsPlainIn n term) := by
  obtain ⟨four, six, hends⟩ := Directive.exists_endsIn_of_read h
  exact ⟨four, six, hends, hends.isPlainIn_length4, hends.isPlainIn_length6⟩

theorem lengths_signed_of_read_mx :
    Directive.read "-MX:x/y/+24//064".toList = .ok ⟨.fail, .mx ⟨some "x/y", some 24, some 64⟩⟩ ∧
      ∃ four six,
        Directive.EndsIn ⟨.fail, .mx ⟨some "x/y", some 24, some 64⟩⟩ "-MX:x/y/+24//064".toList four six ∧
        ('+' ∉ four.getD [] → ∀ n ∈ some 24, IsPlainIn n "-MX:x/y/+24//064".toList) ∧
        ('+' ∉ six.getD [] → ∀ n ∈ some 64, IsPlainIn n "-MX:x/y/+24//064".toList) := by
  have hread : Directive.read "-MX:x/y/+24//064".toList =
      .ok ⟨.fail, .mx ⟨some "x/y", some 24, some 64⟩⟩ := by decide
  exact ⟨hread, lengths_signed_of_read hread⟩

theorem not_isPlainIn_plus (n : Nat) : ¬ IsPlainIn n "a/+24".toList := by
  rintro ⟨before, digits, after, hterm, ⟨hne, hdigit, -⟩, -⟩
  -- the one slash is in the second place
  match before with
  | [] => cases hterm
  | [_] =>
    obtain ⟨c, digits, rfl⟩ := List.exists_cons_of_ne_nil hne
    obtain rfl : '+' = c := Option.some.inj (congrArg (·[2]?) hterm)
    exact absurd (hdigit '+' List.mem_cons_self) (by decide)
  | _ :: _ :: before =>
    have hrest : ['+', '2', '4'] = before ++ '/' :: (digits ++ after) := congrArg (List.drop 2) hterm
    have hslash : '/' ∈ ['+', '2', '4'] := by simp [hrest]
    exact absurd hslash (by decide)

/-- A length is read with a plus in front of its digits. -/
theorem not_forall_isPlainIn : ¬ ∀ (s : String) (term : List Char) (d : Directive),
    term ∈ words s.toList → Term.read term = .directive d → d ∈ (Record.parse s).directives →
      (∀ n ∈ d.mechanism.length4, IsPlainIn n term) ∧ ∀ n ∈ d.mechanism.length6, IsPlainIn n term := by
  intro h
  obtain ⟨hplain, -⟩ := h "v=spf1 a/+24 -all" "a/+24".toList ⟨.pass, .a ⟨none, some 24, none⟩⟩
    (by decide) (by decide) (by decide)
  exact not_isPlainIn_plus 24 (hplain 24 rfl)

end SenderAuth.Spf
