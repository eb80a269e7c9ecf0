import Mathlib.Data.List.TFAE
import SenderAuth.Proofs.Budget.Reading
import SenderAuth.Proofs.Check.View

/-!
Spellings of one domain. DKIM and DMARC records are looked for under a name made from the normal form of
the domain, and all spellings of a domain get one verdict. An SPF record is looked for under the domain
as it is spelled, so that white space around it or a final dot lead to another name; the case of letters
does not matter to a zone.
-/
namespace SenderAuth
open Dns Text

namespace Spf
variable {r : Resolver} {a b : String}

theorem outcome_published_of_answer_eq (h : r a = r b) :
    (published r a).outcome = (published r b).outcome := by
  rw [outcome_published, outcome_published, h]

theorem outcome_verdict_of_answer_eq (h : r a = r b) (v : Validations) :
    (verdict r a v).outcome = (verdict r b v).outcome := by
  rw [verdict, verdict, Lookup.outcome_map, Lookup.outcome_map, outcome_published_of_answer_eq h]

theorem outcome_hasSender_of_answer_eq (h : r a = r b) (sender : String) :
    (hasSender r a sender).outcome = (hasSender r b sender).outcome := by
  rw [hasSender, hasSender, Lookup.outcome_map, Lookup.outcome_map, outcome_published_of_answer_eq h]

theorem outcome_budget_of_answer_eq (h : r a = r b) (limit : Nat) :
    (budget r a limit).outcome = (budget r b limit).outcome := by
  rw [budget, budget, Lookup.outcome_bind, Lookup.outcome_bind, outcome_published_of_answer_eq h]

theorem outcome_staysWithin_of_answer_eq (h : r a = r b) (limit : Nat) :
    (staysWithin r a limit).outcome = (staysWithin r b limit).outcome := by
  rw [staysWithin, staysWithin, Lookup.outcome_map, Lookup.outcome_map, outcome_budget_of_answer_eq h]

end Spf

/-- Work on a domain whose outcome hangs on the answer to the domain itself, and can tell a record from
there being none, has the same outcomes for two spellings in all zones just when these have the same
lower case. -/
theorem forall_zone_outcome_eq_iff {ι α : Type} {f : ι → Resolver → String → Lookup α}
    (hanswer : ∀ i (r : Resolver) a b, r a = r b → (f i r a).outcome = (f i r b).outcome)
    (hrecord : ∃ i record, ∀ (r : Resolver) a b, r a = .ok [record] → r b = .error .noRecords →
      (f i r a).outcome ≠ (f i r b).outcome) (a b : String) :
    (∀ i (z : Zone), (f i z.answer a).outcome = (f i z.answer b).outcome) ↔
      lower a = lower b := by
  constructor
  · intro h
    by_contra hne
    obtain ⟨i, record, hapart⟩ := hrecord
    refine hapart (Zone.empty.addTxt a [record]).answer a b ?_ ?_ (h i _)
    · simp [Zone.answer]
    · simp [Zone.answer, Ne.symm hne]
  · intro h i z
    exact hanswer i z.answer a b (z.answer_congr h)

namespace Spf
variable {r : Resolver} {a b : String}

theorem outcome_published_noRecords (h : r b = .error .noRecords) :
    (published r b).outcome = .ok none := by
  rw [outcome_published_eq_sight, h]
  rfl

theorem outcome_verdict_ne_noRecords (ha : r a = .ok ["v=spf1 -all"]) (hb : r b = .error .noRecords) :
    (verdict r a {}).outcome ≠ (verdict r b {}).outcome := by
  have hstate : (Record.parse "v=spf1 -all").state {} = .setup := by decide +kernel
  simp [verdict, outcome_published_of_isSpf rfl ha, outcome_published_noRecords hb, Except.map, hstate]

theorem outcome_hasSender_ne_noRecords (ha : r a = .ok ["v=spf1 include:a.example -all"])
    (hb : r b = .error .noRecords) :
    (hasSender r a "a.example").outcome ≠ (hasSender r b "a.example").outcome := by
  have hsender : (Record.parse "v=spf1 include:a.example -all").hasSender "a.example" = true := by
    decide +kernel
  simp [hasSender, outcome_published_of_isSpf rfl ha, outcome_published_noRecords hb, Except.map,
    hsender]

/-- A record without terms that count stays within every limit. -/
theorem outcome_budget_zero (ha : r a = .ok ["v=spf1 -all"]) :
    (budget r a 0).outcome = .ok (some ⟨{}, true⟩) := by
  rw [budget_eq_ledger (outcome_published_of_isSpf rfl ha)]
  rfl

theorem outcome_budget_ne_noRecords (ha : r a = .ok ["v=spf1 -all"]) (hb : r b = .error .noRecords) :
    (budget r a 0).outcome ≠ (budget r b 0).outcome := by
  simp [outcome_budget_zero ha, budget_of_none (outcome_published_noRecords hb)]

theorem outcome_staysWithin_ne_noRecords (ha : r a = .ok ["v=spf1 -all"])
    (hb : r b = .error .noRecords) :
    (staysWithin r a 0).outcome ≠ (staysWithin r b 0).outcome := by
  simp [staysWithin, outcome_budget_zero ha, budget_of_none (outcome_published_noRecords hb),
    Except.map]

/-- The SPF checks treat two spellings alike in all zones just when these have the same lower case. -/
theorem outcome_eq_tfae (a b : String) :
    [lower a = lower b,
      ∀ v (z : Zone), (verdict z.answer a v).outcome = (verdict z.answer b v).outcome,
      ∀ sender (z : Zone),
        (hasSender z.answer a sender).outcome = (hasSender z.answer b sender).outcome,
      ∀ limit (z : Zone), (budget z.answer a limit).outcome = (budget z.answer b limit).outcome,
      ∀ limit (z : Zone),
        (staysWithin z.answer a limit).outcome = (staysWithin z.answer b limit).outcome].TFAE := by
  apply List.tfae_of_forall (lower a = lower b)
  intro p hp
  simp only [List.mem_cons, List.not_mem_nil, or_false] at hp
  rcases hp with rfl | rfl | rfl | rfl | rfl
  · exact Iff.rfl
  · exact forall_zone_outcome_eq_iff (f := fun v r domain => verdict r domain v)
      (fun v r a b h => outcome_verdict_of_answer_eq h v)
      ⟨{}, _, fun r a b => outcome_verdict_ne_noRecords⟩ a b
  · exact forall_zone_outcome_eq_iff (f := fun sender r domain => hasSender r domain sender)
      (fun sender r a b h => outcome_hasSender_of_answer_eq h sender)
      ⟨"a.example", _, fun r a b => outcome_hasSender_ne_noRecords⟩ a b
  · exact forall_zone_outcome_eq_iff (f := fun limit r domain => budget r domain limit)
      (fun limit r a b h => outcome_budget_of_answer_eq h limit)
      ⟨0, _, fun r a b => outcome_budget_ne_noRecords⟩ a b
  · exact forall_zone_outcome_eq_iff (f := fun limit r domain => staysWithin r domain limit)
      (fun limit r a b h => outcome_staysWithin_of_answer_eq h limit)
      ⟨0, _, fun r a b => outcome_staysWithin_ne_noRecords⟩ a b

end Spf

theorem Dkim.verdict_eq_of_same {a b : String} (h : DomainName.Same a b) (r : Resolver)
    (selector : String) : verdict r a selector = verdict r b selector := by
  rw [verdict, verdict, DomainName.dkim_eq_of_same selector h]

theorem Dkim.verdictOfAny_eq_of_same {a b : String} (h : DomainName.Same a b) (r : Resolver)
    (selectors : List String) : verdictOfAny r a selectors = verdictOfAny r b selectors := by
  induction selectors with
  | nil => rfl
  | cons selector selectors ih =>
    rw [verdictOfAny_cons, verdictOfAny_cons, verdict_eq_of_same h, ih]

theorem Dmarc.verdict_eq_of_same {a b : String} (h : DomainName.Same a b) (r : Resolver) :
    verdict r a = verdict r b := by
  rw [verdict, verdict, published, published, DomainName.dmarc_eq_of_same h]

/-- Two spellings of one domain get the same DKIM and DMARC verdicts. Their SPF checks agree in all zones
just when the spellings have the same lower case, as they have where they differ in the case of ASCII
letters alone. -/
theorem outcomes_of_same {a b : String} (h : DomainName.Same a b) :
    (∀ r selector, Dkim.verdict r a selector = Dkim.verdict r b selector) ∧
    (∀ r selectors, Dkim.verdictOfAny r a selectors = Dkim.verdictOfAny r b selectors) ∧
    (∀ r, Dmarc.verdict r a = Dmarc.verdict r b) ∧
    (lowerAscii a.toList = lowerAscii b.toList → lower a = lower b) ∧
    [lower a = lower b,
      ∀ v (z : Zone), (Spf.verdict z.answer a v).outcome = (Spf.verdict z.answer b v).outcome,
      ∀ sender (z : Zone),
        (Spf.hasSender z.answer a sender).outcome = (Spf.hasSender z.answer b sender).outcome,
      ∀ limit (z : Zone),
        (Spf.budget z.answer a limit).outcome = (Spf.budget z.answer b limit).outcome,
      ∀ limit (z : Zone), (Spf.staysWithin z.answer a limit).outcome =
        (Spf.staysWithin z.answer b limit).outcome].TFAE :=
  ⟨Dkim.verdict_eq_of_same h, Dkim.verdictOfAny_eq_of_same h, Dmarc.verdict_eq_of_same h,
    lower_eq_of_lowerAscii_eq, Spf.outcome_eq_tfae a b⟩

theorem outcomes_of_same_rootDot :
    DomainName.Same "Mail.Example.com." "mail.example.com" ∧
      (∀ r, Dmarc.verdict r "Mail.Example.com." = Dmarc.verdict r "mail.example.com") ∧
      ¬ ∀ v (z : Zone), (Spf.verdict z.answer "Mail.Example.com." v).outcome =
        (Spf.verdict z.answer "mail.example.com" v).outcome := by
  have hsame : DomainName.Same "Mail.Example.com." "mail.example.com" := by decide
  obtain ⟨-, -, hdmarc, -, htfae⟩ := outcomes_of_same hsame
  refine ⟨hsame, hdmarc, fun h => ?_⟩
  have hlower : lower "Mail.Example.com." = lower "mail.example.com" := (htfae.out 0 1).2 h
  exact absurd hlower (by decide)

/-- A domain that is set up is lost to the SPF check when a final dot is written. -/
theorem not_outcome_verdict_eq_of_same : ¬ ∀ (z : Zone) (a b : String) (v : Spf.Validations),
    DomainName.Same a b → (Spf.verdict z.answer a v).outcome = (Spf.verdict z.answer b v).outcome := by
  intro h
  let z : Zone := Zone.empty.addTxt "example.com" ["v=spf1 -all"]
  have hsame : DomainName.Same "example.com." "example.com" := by decide
  have hdot : (Spf.verdict z.answer "example.com." {}).outcome = .ok .notSetup := by rfl
  have hplain : (Spf.verdict z.answer "example.com" {}).outcome = .ok .setup := by rfl
  have heq := h z "example.com." "example.com" {} hsame
  rw [hdot, hplain] at heq
  cases heq

end SenderAuth
