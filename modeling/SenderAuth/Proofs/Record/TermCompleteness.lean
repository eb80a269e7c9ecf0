import SenderAuth.Proofs.Record.ArgumentCompleteness

/-!
A term that is written by the grammar is one word, and it is read as what it says.
-/
namespace SenderAuth.Spf
open Text

theorem all_isAlpha_lowerAscii (cs : List Char) :
    (lowerAscii cs).all Char.isAlpha = cs.all Char.isAlpha := by
  have hletter (c : Char) : c.toLower.isAlpha = c.isAlpha := apply_toLower (by decide) c
  simp [lowerAscii, List.all_map, Function.comp_def, hletter]

theorem Argument.isAlpha_of_mem_head?_source {arg : Argument} {c : Char}
    (h : c ∈ arg.source.head?) : c.isAlpha = false := by
  cases arg with
  | absent => cases h
  | colon text =>
    obtain rfl := Option.some.inj h
    decide
  | slash text =>
    obtain rfl := Option.some.inj h
    decide

theorem Qualifier.strip_append {q : Qualifier} {sign cs : List Char} (h : q.IsSign sign)
    (hcs : ∀ c ∈ cs.head?, ofSign? c = none) : strip (sign ++ cs) = (q, cs) := by
  cases h with
  | written => exact strip_sign_cons q cs
  | omitted => exact strip_of_head hcs

/-- The name of a mechanism stands behind the sign, whatever comes next. -/
theorem strip_of_name {q : Qualifier} {sign name : List Char} {k : MechanismKind}
    (hsign : q.IsSign sign) (hname : folded name = k.name) (cs : List Char) :
    Qualifier.strip (sign ++ (name ++ cs)) = (q, name ++ cs) := by
  apply Qualifier.strip_append hsign
  intro c hc
  have hne : name ≠ [] := ne_nil_of_folded hname (by cases k <;> decide)
  rw [List.head?_append_of_ne_nil _ hne] at hc
  cases hq : Qualifier.ofSign? c with
  | none => rfl
  | some q' =>
    obtain rfl := Qualifier.ofSign?_eq_some_iff.1 hq
    have hno : q'.sign ∉ name := notMem_of_folded hname (by cases q' <;> cases k <;> decide)
    exact absurd (List.mem_of_mem_head? hc) hno

/-- A term with the name of a mechanism is not taken for a modifier, equals signs or not. -/
theorem splitModifier?_of_name {q : Qualifier} {sign name : List Char} {k : MechanismKind}
    (hsign : q.IsSign sign) (hname : folded name = k.name) (arg : Argument) :
    splitModifier? (sign ++ (name ++ arg.source)) = none := by
  rw [Option.eq_none_iff_forall_ne_some]
  rintro ⟨word, value⟩ h
  obtain ⟨hterm, hne, halpha, hnone⟩ := splitModifier?_eq_some_iff.1 h
  rw [List.all_eq_true] at halpha
  have hword : word ≠ name := by
    intro heq
    rw [heq, hname, MechanismKind.ofName?_name] at hnone
    cases hnone
  cases hsign with
  | written =>
    obtain ⟨c, cs, rfl⟩ := List.exists_cons_of_ne_nil hne
    obtain rfl : q.sign = c := (List.cons.inj hterm).1
    have hsignAlpha : q.sign.isAlpha = false := by cases q <;> decide
    rw [halpha _ List.mem_cons_self] at hsignAlpha
    cases hsignAlpha
  | omitted =>
    rw [List.nil_append] at hterm
    have hequals : '=' ∉ name := notMem_of_folded hname (by cases k <;> decide)
    -- the word in front of the equals sign ends behind the name, or else inside it
    rcases List.append_eq_append_iff.1 hterm with ⟨cs, rfl, hsource⟩ | ⟨cs, rfl, hvalue⟩
    · cases cs with
      | nil => exact hword (List.append_nil name)
      | cons c cs =>
        have hhead : c ∈ arg.source.head? := by simp [hsource]
        have hc : c.isAlpha = false := Argument.isAlpha_of_mem_head?_source hhead
        rw [halpha c (by simp)] at hc
        cases hc
    · cases cs with
      | nil => exact hword (List.append_nil word).symm
      | cons c cs =>
        obtain rfl : '=' = c := (List.cons.inj hvalue).1
        exact hequals (by simp)

theorem Directive.read_of_isTerm {d : Directive} {cs : List Char} (hwf : d.mechanism.WellFormed)
    (hsep : ∀ t ∈ d.mechanism.target?, t.Separable) (h : d.IsTerm cs) :
    Term.read cs = .directive d := by
  obtain ⟨sign, name, arg, hsign, hname, harg, rfl⟩ := h
  obtain ⟨a, rfl, hcut, hgives⟩ := Argument.gives_of_isArgument hwf hsep harg
  have hcolon : ':' ∉ name := notMem_of_folded hname (by cases d.mechanism.kind <;> decide)
  have hslash : '/' ∉ name := notMem_of_folded hname (by cases d.mechanism.kind <;> decide)
  have hsplit : Argument.split (name ++ a.source) = (name, a) :=
    Argument.split_eq_iff.2 ⟨rfl, hcolon, hcut.imp_right fun hno => ⟨hslash, hno⟩⟩
  exact Term.read_eq_directive_iff.2 ⟨splitModifier?_of_name hsign hname a,
    Directive.read_eq_ok_iff.2 ⟨_, name, a, strip_of_name hsign hname _, hsplit, hname, hgives⟩⟩

theorem Modifier.read_of_isTerm {m : Modifier} {value : String} {cs : List Char}
    (hvalue : IsValue value) (h : m.IsTerm value cs) : Term.read cs = .modifier m value := by
  obtain ⟨name, hname, rfl⟩ := h
  have hne : name ≠ [] := ne_nil_of_folded hname (by cases m <;> decide)
  have halpha : name.all Char.isAlpha = true := by
    rw [← all_isAlpha_lowerAscii, lowerAscii_of_folded hname]
    cases m <;> rfl
  have hkind : MechanismKind.ofName? (folded name) = none := by
    rw [hname]
    cases m <;> decide
  have hmodifier : Modifier.ofName? (folded name) = some m := by
    rw [hname, Modifier.ofName?_name]
  exact Term.read_eq_modifier_iff.2 ⟨name, value.toList,
    splitModifier?_eq_some_iff.2 ⟨rfl, hne, halpha, hkind⟩, hmodifier,
    hvalue.toList_ne_nil, String.ofList_toList.symm⟩

theorem isBlank_of_isHexDigit {c : Char} (h : isHexDigit c = true) : isBlank c = false := by
  have hle (a b : Char) : a ≤ b ↔ a.toNat ≤ b.toNat := Iff.rfl
  have hdigit : c.isDigit = true ↔ 48 ≤ c.toNat ∧ c.toNat ≤ 57 := by
    rw [Char.isDigit, Bool.and_eq_true, decide_eq_true_eq, decide_eq_true_eq]
    exact Iff.rfl
  apply isBlank_of_printable
  simp only [isHexDigit, Bool.or_eq_true, Bool.and_eq_true, decide_eq_true_eq, hle, hdigit,
    Char.reduceToNat] at h
  omega

theorem isBlank_of_isDigit {c : Char} (h : c.isDigit = true) : isBlank c = false :=
  isBlank_of_isHexDigit (by simp [isHexDigit, h])

theorem IsLength.isBlank_separated {n : Option Nat} {digits : Option (List Char)}
    (h : IsLength n digits) {sep : List Char} (hsep : ∀ c ∈ sep, isBlank c = false) :
    ∀ c ∈ separated sep digits, isBlank c = false := by
  cases h with
  | absent => exact nofun
  | present h =>
    exact List.forall_mem_append.2 ⟨hsep, fun c hc => isBlank_of_isDigit (h.2.1 c hc)⟩

theorem isBlank_renderDomain {domain : Option String} (h : ∀ x ∈ domain, IsValue x) :
    ∀ c ∈ renderDomain domain, isBlank c = false := by
  cases domain with
  | none => exact nofun
  | some x => exact List.forall_mem_cons.2 ⟨by decide, (h x rfl).2⟩

theorem Mechanism.IsArgument.isBlank_eq_false {m : Mechanism} {cs : List Char}
    (hwf : m.WellFormed) (h : m.IsArgument cs) : ∀ c ∈ cs, isBlank c = false := by
  have hcolon : isBlank ':' = false := by decide
  have hslash : ∀ n, ∀ c ∈ List.replicate n '/', isBlank c = false := by
    intro n c hc
    obtain rfl := List.eq_of_mem_replicate hc
    decide
  have htarget (t : Target) (ht : t.IsArgument cs) (hdomain : ∀ x ∈ t.domain, IsValue x) :
      ∀ c ∈ cs, isBlank c = false := by
    obtain ⟨four, six, h4, h6, rfl⟩ := ht
    exact List.forall_mem_append.2 ⟨List.forall_mem_append.2
      ⟨isBlank_renderDomain hdomain, h4.isBlank_separated (hslash 1)⟩, h6.isBlank_separated (hslash 2)⟩
  cases m with
  | all =>
    obtain rfl := h
    exact nofun
  | includes x =>
    obtain rfl := h
    exact List.forall_mem_cons.2 ⟨hcolon, (hwf.domain x rfl).2⟩
  | existsAt x =>
    obtain rfl := h
    exact List.forall_mem_cons.2 ⟨hcolon, (hwf.domain x rfl).2⟩
  | a t => exact htarget t h hwf.domain
  | mx t => exact htarget t h hwf.domain
  | ptr domain =>
    obtain rfl := h
    exact isBlank_renderDomain hwf.domain
  | ip4 x length =>
    obtain ⟨digits, hlength, rfl⟩ := h
    refine List.forall_mem_cons.2 ⟨hcolon, List.forall_mem_append.2
      ⟨fun c hc => ?_, hlength.isBlank_separated (hslash 1)⟩⟩
    rcases Ipv4.eq_dot_or_isDigit_of_mem_render hc with rfl | hc
    · decide
    · exact isBlank_of_isDigit hc
  | ip6 x length =>
    obtain ⟨groups, digits, hgroups, hlength, rfl⟩ := h
    refine List.forall_mem_cons.2 ⟨hcolon, List.forall_mem_append.2
      ⟨fun c hc => ?_, hlength.isBlank_separated (hslash 1)⟩⟩
    rcases hgroups.eq_colon_or_isHexDigit_of_mem hc with rfl | hc
    · exact hcolon
    · exact isBlank_of_isHexDigit hc

theorem Qualifier.IsSign.isBlank_eq_false {q : Qualifier} {sign : List Char} (h : q.IsSign sign) :
    ∀ c ∈ sign, isBlank c = false := by
  cases h with
  | written =>
    intro c hc
    obtain rfl := List.mem_singleton.1 hc
    cases q <;> decide
  | omitted => exact nofun

theorem Directive.IsTerm.isWord {d : Directive} {cs : List Char} (hwf : d.mechanism.WellFormed)
    (h : d.IsTerm cs) : cs ≠ [] ∧ ∀ c ∈ cs, isBlank c = false := by
  obtain ⟨sign, name, arg, hsign, hname, harg, rfl⟩ := h
  have hne : name ≠ [] := ne_nil_of_folded hname (by cases d.mechanism.kind <;> decide)
  have hnameBlank : ∀ c ∈ name, isBlank c = false :=
    isBlank_of_lowerAscii (by rw [lowerAscii_of_folded hname]; cases d.mechanism.kind <;> rfl)
  exact ⟨by simp [hne], List.forall_mem_append.2 ⟨hsign.isBlank_eq_false,
    List.forall_mem_append.2 ⟨hnameBlank, harg.isBlank_eq_false hwf⟩⟩⟩

theorem Modifier.IsTerm.isWord {m : Modifier} {value : String} {cs : List Char}
    (hvalue : IsValue value) (h : m.IsTerm value cs) : cs ≠ [] ∧ ∀ c ∈ cs, isBlank c = false := by
  obtain ⟨name, hname, rfl⟩ := h
  have hnameBlank : ∀ c ∈ name, isBlank c = false :=
    isBlank_of_lowerAscii (by rw [lowerAscii_of_folded hname]; cases m <;> rfl)
  exact ⟨by simp, List.forall_mem_append.2 ⟨hnameBlank,
    List.forall_mem_cons.2 ⟨by decide, hvalue.2⟩⟩⟩

end SenderAuth.Spf
