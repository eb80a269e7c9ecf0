import SenderAuth.Proofs.Budget.Reading

/-!
Budgets of one domain with different limits. A larger limit carries on where a smaller one stops: it asks
for the same names first and counts no less, and it changes nothing where the smaller one was enough or
where the budget failed.
-/
namespace SenderAuth.Spf
open Dns
open Stream' (Seq)

variable {r : Resolver}

/-- A ledger that is not full stays as it is with more room. -/
theorem ledger_eq_of_not_full {small large : Nat} {terms : List Counted} (hle : small ≤ large)
    (h : ∀ written, (ledger r small terms).outcome = .ok written → written.length < small) :
    ledger r large terms = ledger r small terms := by
  induction small generalizing large terms with
  | zero => exact absurd (h [] (by simp)) (Nat.lt_irrefl 0)
  | succ small ih =>
    obtain ⟨large, rfl⟩ : ∃ n, large = n + 1 := ⟨large - 1, by omega⟩
    match terms, small with
    | [], _ => simp
    | .address :: rest, small =>
      rw [ledger_address, ledger_address, ih (by omega)]
      intro written hwritten
      have hlt := h (.address :: written) (by simp [ledger_address, hwritten, Except.map])
      simpa using hlt
    | .includes domain :: rest, 0 =>
      exact absurd (h [.includes domain] (by simp [ledger_one_includes])) (by simp)
    | .includes domain :: rest, small + 1 =>
      obtain ⟨large, rfl⟩ : ∃ n, large = n + 1 := ⟨large - 1, by omega⟩
      cases hpublished : (published r domain).outcome with
      | error e => rw [ledger_includes_of_error hpublished, ledger_includes_of_error hpublished]
      | ok included =>
        have hbehind : ledger r (large + 1) (countedTerms (directivesOf included) ++ rest) =
            ledger r (small + 1) (countedTerms (directivesOf included) ++ rest) := by
          apply ih (by omega)
          intro written hwritten
          have hlt := h (.includes domain :: written) (by
            simp [ledger_includes_of_ok hpublished, hwritten, Except.map])
          simpa using hlt
        rw [ledger_includes_of_ok hpublished, ledger_includes_of_ok hpublished, hbehind]

theorem asked_budget_mono (domain : String) {small large : Nat} (h : small ≤ large) :
    (budget r domain small).asked <+: (budget r domain large).asked := by
  rcases exists_record_or_budget_eq r domain with ⟨record, hpublished⟩ | ⟨outcome, -, hbudget⟩
  · rw [asked_budget hpublished, asked_budget hpublished, ← take_take _ h, List.prefix_cons_inj]
    exact (List.take_prefix _ _).filterMap _
  · simp only [hbudget, List.prefix_rfl]

theorem budget_eq_of_error {domain : String} {small large : Nat} (hle : small ≤ large) {e : Failure}
    (h : (budget r domain small).outcome = .error e) :
    budget r domain large = budget r domain small := by
  rcases exists_record_or_budget_eq r domain with ⟨record, hpublished⟩ | ⟨outcome, -, hbudget⟩
  · have hledger : (ledger r (small + 1) (countedTerms record.directives)).outcome = .error e := by
      rw [budget_eq_ledger hpublished] at h
      cases hwritten : (ledger r (small + 1) (countedTerms record.directives)).outcome <;>
        simp_all [Except.map]
    rw [budget_eq_ledger hpublished, budget_eq_ledger hpublished,
      ledger_eq_of_not_full (Nat.succ_le_succ hle) (by simp [hledger]), hledger]
    rfl
  · rw [hbudget, hbudget]

/-- Whether there is a record does not hang on the limit. -/
theorem budget_eq_none_iff {domain : String} (limit : Nat) :
    (budget r domain limit).outcome = .ok none ↔ (published r domain).outcome = .ok none := by
  cases hpublished : (published r domain).outcome with
  | error e => simp [budget_of_error hpublished]
  | ok found =>
    cases found with
    | none => simp [budget_of_none hpublished]
    | some record =>
      rw [outcome_budget hpublished]
      cases readEvents ((record.expansion r).take (limit + 1)) <;> simp [Except.map]

theorem budget_eq_of_within {domain : String} {small large : Nat} (hle : small ≤ large)
    {report : Report} (h : (budget r domain small).outcome = .ok (some report))
    (hwithin : report.withinLimit = true) :
    budget r domain large = budget r domain small := by
  obtain ⟨record, terms, hpublished, hterms, rfl⟩ := exists_terms_of_report h
  have hsmall : terms.length ≤ small := (Report.withinLimit_ofTally small terms).mp hwithin
  have hledger : (ledger r (small + 1) (countedTerms record.directives)).outcome = .ok terms := by
    rw [(ledger_eq_read _ _).2]
    exact readEvents_eq_ok_iff.mpr hterms
  have hreport : Report.ofTally large (Tally.count {} terms) =
      Report.ofTally small (Tally.count {} terms) := by
    have htotal : (Tally.count {} terms).total = terms.length := Report.total_ofTally small terms
    simp [Report.ofTally, htotal, hsmall, Nat.le_trans hsmall hle]
  rw [budget_eq_ledger hpublished, budget_eq_ledger hpublished,
    ledger_eq_of_not_full (Nat.succ_le_succ hle), hledger]
  · simp [Except.map, hreport]
  · intro written hwritten
    obtain rfl : terms = written := by simpa [hledger] using hwritten
    exact Nat.lt_succ_of_le hsmall

theorem tally_le_of_le {domain : String} {small large : Nat} (hle : small ≤ large)
    {first second : Report} (hfirst : (budget r domain small).outcome = .ok (some first))
    (hsecond : (budget r domain large).outcome = .ok (some second)) :
    first.tally.includes ≤ second.tally.includes ∧
      first.tally.addresses ≤ second.tally.addresses := by
  obtain ⟨record, terms, hpublished, hterms, rfl⟩ := exists_terms_of_report hfirst
  obtain ⟨record', terms', hpublished', hterms', rfl⟩ := exists_terms_of_report hsecond
  obtain rfl : record = record' := by simpa [hpublished] using hpublished'
  have hprefix : terms.map Event.term <+: terms'.map Event.term := by
    rw [← hterms, ← hterms', ← take_take _ (Nat.succ_le_succ hle)]
    exact List.take_prefix _ _
  refine ⟨?_, ?_⟩
  · show (Tally.count {} terms).includes ≤ (Tally.count {} terms').includes
    rw [← countP_isInclude, ← countP_isInclude]
    exact hprefix.sublist.countP_le
  · show (Tally.count {} terms).addresses ≤ (Tally.count {} terms').addresses
    rw [← countP_isAddress, ← countP_isAddress]
    exact hprefix.sublist.countP_le

/-- The budgets of a domain with two limits. -/
theorem budget_mono (r : Resolver) (domain : String) {small large : Nat} (h : small ≤ large) :
    (budget r domain small).asked <+: (budget r domain large).asked ∧
      (∀ e, (budget r domain small).outcome = .error e →
        budget r domain large = budget r domain small) ∧
      ((budget r domain small).outcome = .ok none ↔ (budget r domain large).outcome = .ok none) ∧
      (∀ report, (budget r domain small).outcome = .ok (some report) →
        report.withinLimit = true → budget r domain large = budget r domain small) ∧
      ((staysWithin r domain small).outcome = .ok true →
        (staysWithin r domain large).outcome = .ok true) ∧
      ∀ first second, (budget r domain small).outcome = .ok (some first) →
        (budget r domain large).outcome = .ok (some second) →
          first.tally.includes ≤ second.tally.includes ∧
            first.tally.addresses ≤ second.tally.addresses := by
  refine ⟨asked_budget_mono domain h, fun e he => budget_eq_of_error h he,
    (budget_eq_none_iff small).trans (budget_eq_none_iff large).symm,
    fun report hreport hwithin => budget_eq_of_within h hreport hwithin, fun hstays => ?_,
    fun first second hfirst hsecond => tally_le_of_le h hfirst hsecond⟩
  obtain ⟨report, hreport, hwithin⟩ := staysWithin_eq_true_iff.mp hstays
  exact staysWithin_eq_true_iff.mpr
    ⟨report, by rw [budget_eq_of_within h hreport hwithin, hreport], hwithin⟩

def chain : Zone :=
  (Zone.empty.addTxt "a.example" ["v=spf1 include:b.example -all"]).addTxt
    "b.example" ["v=spf1 a:c.example -all"]

theorem budget_mono_chain :
    2 ≤ 5 ∧ (budget chain.answer "a.example" 2).outcome = .ok (some ⟨⟨1, 1⟩, true⟩) ∧
      budget chain.answer "a.example" 5 = budget chain.answer "a.example" 2 := by
  have hle : 2 ≤ 5 := by decide
  have hpublished : (published chain.answer "a.example").outcome =
      .ok (some (Record.parse "v=spf1 include:b.example -all")) := by rfl
  have houtcome : (budget chain.answer "a.example" 2).outcome = .ok (some ⟨⟨1, 1⟩, true⟩) := by
    rw [budget_eq_ledger hpublished]
    rfl
  obtain ⟨-, -, -, hwithin, -, -⟩ := budget_mono chain.answer "a.example" hle
  exact ⟨hle, houtcome, hwithin _ houtcome rfl⟩

end SenderAuth.Spf
