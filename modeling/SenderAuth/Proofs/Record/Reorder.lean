import SenderAuth.Proofs.Check.View
import SenderAuth.Proofs.Record.Roles

/-!
Records with the same terms in another order. Which of several values of a modifier is kept, and what is
said about the others, hangs on the order; how much is wrong, what the directives are, whether there is a
modifier and whether the record is open-ended do not.
-/
namespace SenderAuth.Spf
open Dns Text

/-- Two records that differ in no more than the order of the terms they are made of. -/
structure Record.Reorders (p q : Record) : Prop where
  valid : p.valid = q.valid
  errors : (p.messages.filter Diagnostic.isError).length = (q.messages.filter Diagnostic.isError).length
  directives : p.directives.Perm q.directives
  redirect : p.redirect.isSome = q.redirect.isSome
  explanation : p.explanation.isSome = q.explanation.isSome
  redirect_of_valid : p.valid = true → p.redirect = q.redirect
  explanation_of_valid : p.valid = true → p.explanation = q.explanation
  openEnded : .noAllOrRedirect ∈ p.messages ↔ .noAllOrRedirect ∈ q.messages

section
variable {ts us : List Term}

theorem valid_ofTerms_of_perm (h : ts.Perm us) :
    (Record.ofTerms ts).valid = (Record.ofTerms us).valid := by
  have hlength (m : Modifier) :
      (ts.filterMap (Term.value? m)).length = (us.filterMap (Term.value? m)).length :=
    (h.filterMap _).length_eq
  rw [Bool.eq_iff_iff, Record.valid_ofTerms_iff, Record.valid_ofTerms_iff]
  simp only [h.mem_iff, hlength]

theorem isSome_findSome?_value?_of_perm (h : ts.Perm us) (m : Modifier) :
    (ts.findSome? (Term.value? m)).isSome = (us.findSome? (Term.value? m)).isSome := by
  rw [Bool.eq_iff_iff, isSome_findSome?_value?_iff, isSome_findSome?_value?_iff,
    (h.filterMap (Term.value? m)).length_eq]

/-- In a usable record a modifier has no more than one value, which is found in every order. -/
theorem findSome?_value?_of_perm (h : ts.Perm us) (hvalid : (Record.ofTerms ts).valid = true)
    (m : Modifier) : ts.findSome? (Term.value? m) = us.findSome? (Term.value? m) := by
  have hperm := h.filterMap (Term.value? m)
  have hone := ((Record.valid_ofTerms_iff ts).1 hvalid).2 m
  have hvalues : ts.filterMap (Term.value? m) = us.filterMap (Term.value? m) := by
    match hts : ts.filterMap (Term.value? m) with
    | [] => rw [hts] at hperm; exact hperm.nil_eq
    | [value] => rw [hts] at hperm; exact hperm.singleton_eq
    | _ :: _ :: _ => simp [hts] at hone
  rw [← List.head?_filterMap, ← List.head?_filterMap, hvalues]

theorem reorders_ofTerms (hts : ∀ t ∈ ts, t.FaultIsError) (h : ts.Perm us) :
    (Record.ofTerms ts).Reorders (Record.ofTerms us) := by
  have hus : ∀ t ∈ us, t.FaultIsError := fun t ht => hts t (h.mem_iff.2 ht)
  have hdirectives : (Record.ofTerms ts).directives.Perm (Record.ofTerms us).directives :=
    h.filterMap Term.directive?
  have hredirect : (Record.ofTerms ts).redirect.isSome = (Record.ofTerms us).redirect.isSome :=
    isSome_findSome?_value?_of_perm h .redirect
  have hexplanation : (Record.ofTerms ts).explanation.isSome = (Record.ofTerms us).explanation.isSome :=
    isSome_findSome?_value?_of_perm h .exp
  refine
    { valid := valid_ofTerms_of_perm h
      errors := ?_
      directives := hdirectives
      redirect := hredirect
      explanation := hexplanation
      redirect_of_valid := fun hvalid => findSome?_value?_of_perm h hvalid .redirect
      explanation_of_valid := fun hvalid => findSome?_value?_of_perm h hvalid .exp
      openEnded := ?_ }
  · -- of all terms the errors are what is left over
    have hfirst := length_eq_ofTerms hts
    have hsecond := length_eq_ofTerms hus
    have hlength {a b : Option String} (hab : a.isSome = b.isSome) :
        a.toList.length = b.toList.length := by
      cases a <;> cases b <;> simp_all
    rw [hlength hredirect, hlength hexplanation, hdirectives.length_eq, h.length_eq,
      h.count_eq] at hfirst
    omega
  · rw [noAllOrRedirect_mem_ofTerms_iff hts, noAllOrRedirect_mem_ofTerms_iff hus, OpenEnded, OpenEnded]
    simp only [hdirectives.mem_iff, ← Option.isNone_iff_eq_none, ← Option.not_isSome, hredirect]

end

theorem Directive.passes_of_same {a b : String} (h : DomainName.Same a b) :
    Directive.passes a = Directive.passes b := by
  funext d
  unfold passes
  split
  · exact decide_eq_decide.2 ⟨fun hd => hd.trans h, fun hd => hd.trans h.symm⟩
  · rfl

theorem Record.Reorders.hasSender {p q : Record} (h : p.Reorders q) {a b : String}
    (hsame : DomainName.Same a b) : p.hasSender a = q.hasSender b := by
  rw [Record.hasSender, Record.hasSender, h.valid, h.directives.any_eq, Directive.passes_of_same hsame]

theorem outcome_hasSender_of_select {r : Resolver} {domain s : String} {records : List String}
    (hanswer : r domain = .ok records) (hselect : select records = some s) (sender : String) :
    (hasSender r domain sender).outcome = .ok ((Record.parse s).hasSender sender) := by
  simp [hasSender, outcome_published_eq_sight, hanswer, sight_ok, hselect, Except.map]

/-- With its terms in another order a record is the same but for the order of its directives and, when
something is wrong with it, for which values of modifiers are kept. So a domain has the senders that it
has with its terms in any other order, in whatever way these are spelled. -/
theorem reorders_parse {ts us : List (List Char)} (hword : ∀ w ∈ ts, IsWord w) (hperm : ts.Perm us) :
    (Record.parse (spell ts)).Reorders (Record.parse (spell us)) ∧
    ∀ (r s : Resolver) (domain : String) (xs ys : List String), r domain = .ok xs → s domain = .ok ys →
      select xs = some (spell ts) → select ys = some (spell us) →
      ∀ a b, DomainName.Same a b → ∃ answer, (hasSender r domain a).outcome = .ok answer ∧
        (hasSender s domain b).outcome = .ok answer := by
  have hword' : ∀ w ∈ us, IsWord w := fun w hw => hword w (hperm.mem_iff.2 hw)
  have hreorders : (Record.parse (spell ts)).Reorders (Record.parse (spell us)) := by
    rw [parse_spell hword, parse_spell hword']
    exact reorders_ofTerms faultIsError_of_mem_map_read (hperm.map Term.read)
  refine ⟨hreorders, fun r s domain xs ys hr hs hx hy a b hsame => ⟨_,
    outcome_hasSender_of_select hr hx a, ?_⟩⟩
  rw [outcome_hasSender_of_select hs hy b, hreorders.hasSender hsame]

def lateTerms : List (List Char) :=
  ["-all".toList, "include:Mail.Example.".toList, "exp=why.example".toList]

def earlyTerms : List (List Char) :=
  ["exp=why.example".toList, "include:Mail.Example.".toList, "-all".toList]

def lateZone : Zone :=
  (Zone.empty.addTxt "example.com" ["verification=1", spell lateTerms]).addFailure "mail.example" .timeout

def earlyZone : Zone := Zone.empty.addTxt "example.com" [spell earlyTerms]

theorem reorders_parse_lateTerms :
    (∀ w ∈ lateTerms, IsWord w) ∧ lateTerms.Perm earlyTerms ∧
      (Record.parse (spell lateTerms)).messages = [.mechanismAfterAll] ∧
      (Record.parse (spell earlyTerms)).messages = [] ∧
      (Record.parse (spell lateTerms)).Reorders (Record.parse (spell earlyTerms)) ∧
      DomainName.Same "mail.example" "MAIL.example." ∧
      (hasSender lateZone.answer "example.com" "mail.example").outcome = .ok true ∧
      (hasSender earlyZone.answer "example.com" "MAIL.example.").outcome = .ok true := by
  have hword : ∀ w ∈ lateTerms, IsWord w := by decide
  have hperm : lateTerms.Perm earlyTerms := by decide
  have hsame : DomainName.Same "mail.example" "MAIL.example." := by decide
  have hlate : (hasSender lateZone.answer "example.com" "mail.example").outcome = .ok true := by rfl
  obtain ⟨hreorders, hsenders⟩ := reorders_parse hword hperm
  obtain ⟨answer, hfirst, hsecond⟩ := hsenders lateZone.answer earlyZone.answer "example.com"
    ["verification=1", spell lateTerms] [spell earlyTerms] rfl rfl rfl rfl _ _ hsame
  obtain rfl : answer = true := Except.ok.inj (hfirst.symm.trans hlate)
  exact ⟨hword, hperm, by decide +kernel, by decide +kernel, hreorders, hsame, hlate, hsecond⟩

end SenderAuth.Spf
