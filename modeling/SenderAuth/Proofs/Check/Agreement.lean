import SenderAuth.Proofs.Budget.Monotone
import SenderAuth.Proofs.Budget.Queries
import SenderAuth.Proofs.Check.Verdict

/-!
How the SPF checks on one domain hang together. Each of them asks for the record anew and judges it in its
own way; they agree on whether there is a record, and a sender that a domain includes is a sign of a record
that is fit and that counts for something.
-/
namespace SenderAuth.Spf
open Dns

variable {r : Resolver} {domain sender : String}

theorem Record.state_ne_notSetup (record : Record) (v : Validations) : record.state v ≠ .notSetup := by
  unfold state
  split_ifs <;> simp

theorem outcome_verdict_eq_notSetup_iff_published (v : Validations) :
    (verdict r domain v).outcome = .ok .notSetup ↔ (published r domain).outcome = .ok none := by
  rw [verdict, Lookup.outcome_map]
  cases (published r domain).outcome with
  | error e => simp [Except.map]
  | ok found =>
    cases found with
    | none => simp [Except.map]
    | some record => simp [Except.map, record.state_ne_notSetup v]

theorem outcome_hasSender_of_none (h : (published r domain).outcome = .ok none) (sender : String) :
    (hasSender r domain sender).outcome = .ok false := by
  rw [hasSender, Lookup.outcome_map, h]
  rfl

theorem outcome_hasSender_eq_true_iff : (hasSender r domain sender).outcome = .ok true ↔
    ∃ record, (published r domain).outcome = .ok (some record) ∧
      record.hasSender sender = true := by
  rw [hasSender, Lookup.outcome_map]
  cases (published r domain).outcome with
  | error e => simp [Except.map]
  | ok found => cases found <;> simp [Except.map]

theorem Record.state_of_hasSender {record : Record} (h : record.hasSender sender = true) :
    record.state {} = .setup := by
  have hvalid : record.valid = true := (Bool.and_eq_true_iff.1 h).1
  simp [state, hvalid]

/-- A record that has a sender includes a domain, which counts. -/
theorem Record.countedTerms_ne_nil_of_hasSender {record : Record}
    (h : record.hasSender sender = true) : countedTerms record.directives ≠ [] := by
  obtain ⟨-, hany⟩ := Bool.and_eq_true_iff.1 h
  obtain ⟨⟨q, m⟩, hd, hpasses⟩ := List.any_eq_true.1 hany
  cases m with
  | includes target =>
    exact List.ne_nil_of_mem (includes_mem_countedTerms.2 ⟨_, hd, rfl⟩)
  | _ => cases q <;> simp [Directive.passes] at hpasses

/-- The first term that counts is counted with every limit. -/
theorem one_le_total_of_countedTerms {record : Record} {limit : Nat} {report : Report}
    (hpublished : (published r domain).outcome = .ok (some record))
    (hcounted : countedTerms record.directives ≠ [])
    (h : (budget r domain limit).outcome = .ok (some report)) : 1 ≤ report.total := by
  obtain ⟨record', terms, hpublished', hterms, rfl⟩ := exists_terms_of_report h
  obtain rfl : record = record' := by simpa [hpublished] using hpublished'
  obtain ⟨c, rest, hcons⟩ := List.exists_cons_of_ne_nil hcounted
  rw [Record.expansion, hcons, expansion_cons, Stream'.Seq.take_succ_cons] at hterms
  rw [Report.total_ofTally, ← List.length_map (f := Event.term), ← hterms]
  exact Nat.le_add_left 1 _

/-- With no room at all a record that is there always has a report, since nothing else is asked for. -/
theorem exists_report_of_limit_zero {record : Record}
    (h : (published r domain).outcome = .ok (some record)) :
    ∃ report, (budget r domain 0).outcome = .ok (some report) := by
  have hnone (e : Failure) : ¬ FailsWithin (record.expansion r) 0 e := by
    rintro ⟨i, hi, -⟩
    exact Nat.not_lt_zero i hi
  obtain ⟨terms, -, houtcome⟩ := exists_terms_of_not_failsWithin h hnone
  exact ⟨_, houtcome⟩

theorem outcome_staysWithin (r : Resolver) (domain : String) (limit : Nat) :
    (staysWithin r domain limit).outcome =
      (budget r domain limit).outcome.map fun found => found.any Report.withinLimit := rfl

theorem withinLimit_iff_of_report {limit : Nat} {report : Report}
    (h : (budget r domain limit).outcome = .ok (some report)) :
    report.withinLimit = true ↔ report.total ≤ limit := by
  obtain ⟨record, terms, -, -, rfl⟩ := exists_terms_of_report h
  rw [Report.withinLimit_ofTally, Report.total_ofTally]

/-- The include of the sender counts, which is one term too many for a limit of zero. -/
theorem outcome_staysWithin_zero_of_hasSender
    (h : (hasSender r domain sender).outcome = .ok true) :
    (staysWithin r domain 0).outcome = .ok false := by
  obtain ⟨record, hpublished, hsender⟩ := outcome_hasSender_eq_true_iff.1 h
  obtain ⟨report, hreport⟩ := exists_report_of_limit_zero hpublished
  have htotal : 1 ≤ report.total :=
    one_le_total_of_countedTerms hpublished (record.countedTerms_ne_nil_of_hasSender hsender) hreport
  have hnot : report.withinLimit = false := by
    rw [← Bool.not_eq_true, withinLimit_iff_of_report hreport]
    omega
  rw [outcome_staysWithin, hreport]
  simp [Except.map, hnot]

/-- Where the budget of a domain can be had, the checks agree on whether the domain has a record, staying
within the limit is to have a report with no more than the limit, and a domain that has a sender is set up
and counts at least one term, so that it is never within a limit of zero. -/
theorem checks_agree (r : Resolver) (domain : String) (limit : Nat) (v : Validations)
    (h : ∃ found, (budget r domain limit).outcome = .ok found) :
    ((budget r domain limit).outcome = .ok none ↔ (published r domain).outcome = .ok none) ∧
    ((published r domain).outcome = .ok none ↔ (verdict r domain v).outcome = .ok .notSetup) ∧
    ((published r domain).outcome = .ok none →
      (∀ sender, (hasSender r domain sender).outcome = .ok false) ∧
        (staysWithin r domain limit).outcome = .ok false) ∧
    (∃ within, (staysWithin r domain limit).outcome = .ok within ∧
      (within = true ↔ ∃ report, (budget r domain limit).outcome = .ok (some report) ∧
        report.total ≤ limit)) ∧
    ∀ sender, (hasSender r domain sender).outcome = .ok true →
      (verdict r domain {}).outcome = .ok .setup ∧
      (∃ report, (budget r domain limit).outcome = .ok (some report) ∧ 1 ≤ report.total) ∧
      (staysWithin r domain 0).outcome = .ok false := by
  obtain ⟨found, hfound⟩ := h
  refine ⟨budget_eq_none_iff limit, (outcome_verdict_eq_notSetup_iff_published v).symm,
    fun hnone => ⟨outcome_hasSender_of_none hnone, ?_⟩, ?_, fun sender hsender => ⟨?_, ?_,
    outcome_staysWithin_zero_of_hasSender hsender⟩⟩
  · rw [outcome_staysWithin, (budget_eq_none_iff limit).2 hnone]
    rfl
  · refine ⟨found.any Report.withinLimit, by rw [outcome_staysWithin, hfound]; rfl, ?_⟩
    cases found with
    | none => simp [hfound]
    | some report => simp [hfound, withinLimit_iff_of_report hfound]
  · obtain ⟨record, hpublished, hrecord⟩ := outcome_hasSender_eq_true_iff.1 hsender
    rw [verdict, Lookup.outcome_map, hpublished]
    exact congrArg Except.ok (record.state_of_hasSender hrecord)
  · obtain ⟨record, hpublished, hrecord⟩ := outcome_hasSender_eq_true_iff.1 hsender
    cases found with
    | none =>
      rw [budget_eq_none_iff, hpublished] at hfound
      cases hfound
    | some report =>
      exact ⟨report, hfound, one_le_total_of_countedTerms hpublished
        (record.countedTerms_ne_nil_of_hasSender hrecord) hfound⟩

theorem checks_agree_pingPong :
    (∃ found, (budget pingPong.answer "ping.example" 3).outcome = .ok found) ∧
      (hasSender pingPong.answer "ping.example" "PONG.example.").outcome = .ok true ∧
      (verdict pingPong.answer "ping.example" {}).outcome = .ok .setup ∧
      (staysWithin pingPong.answer "ping.example" 0).outcome = .ok false := by
  have hbudget : ∃ found, (budget pingPong.answer "ping.example" 3).outcome = .ok found := by
    rw [budget_eq_ledger published_pingPong]
    exact ⟨_, rfl⟩
  have hsender : (hasSender pingPong.answer "ping.example" "PONG.example.").outcome = .ok true := by
    refine outcome_hasSender_eq_true_iff.2 ⟨_, published_pingPong, ?_⟩
    decide +kernel
  obtain ⟨-, -, -, -, hagree⟩ := checks_agree pingPong.answer "ping.example" 3 .strict hbudget
  obtain ⟨hsetup, -, hzero⟩ := hagree _ hsender
  exact ⟨hbudget, hsender, hsetup, hzero⟩

end SenderAuth.Spf
