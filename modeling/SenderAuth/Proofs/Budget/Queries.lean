import SenderAuth.Proofs.Budget.Reading

/-!
The names that a budget asks for. There are at most one more than the limit, whatever the zone holds;
those behind the first are the targets of the counted includes, in order, and each of them was read in a
record that was fetched before.
-/
namespace SenderAuth.Spf
open Dns

variable {r : Resolver}

theorem includes_mem_countedTerms {name : String} {ds : List Directive} :
    Counted.includes name ∈ countedTerms ds ↔ ∃ d ∈ ds, d.mechanism = .includes name := by
  have hcounted (d : Directive) :
      d.counted? = some (.includes name) ↔ d.mechanism = .includes name := by
    unfold Directive.counted?
    split <;> simp_all
  simp [countedTerms, hcounted]

/-- Each name behind the first is the target of an include in a record that was fetched before it. -/
def FollowsIncludes (r : Resolver) (asked : List String) : Prop :=
  ∀ before name after, asked = before ++ name :: after → before ≠ [] →
    ∃ source ∈ before, ∃ record, (published r source).outcome = .ok (some record) ∧
      ∃ d ∈ record.directives, d.mechanism = .includes name

theorem includes_of_asked_ledger {room : Nat} {terms : List Counted} {before : List String}
    {name : String} {after : List String}
    (h : (ledger r room terms).asked = before ++ name :: after) :
    Counted.includes name ∈ terms ∨ ∃ source ∈ before, ∃ record,
      (published r source).outcome = .ok (some record) ∧
        Counted.includes name ∈ countedTerms record.directives := by
  induction room generalizing terms before with
  | zero => simp at h
  | succ room ih =>
    match terms, room with
    | [], _ => simp at h
    | .address :: rest, room =>
      rw [ledger_address, Lookup.asked_map] at h
      simpa using ih h
    | .includes domain :: rest, 0 => simp [ledger_one_includes] at h
    | .includes domain :: rest, room + 1 =>
      cases hpublished : (published r domain).outcome with
      | error e =>
        rw [ledger_includes_of_error hpublished] at h
        cases before with
        | nil => exact .inl (by simp_all)
        | cons source before => simp at h
      | ok included =>
        rw [ledger_includes_of_ok hpublished] at h
        cases before with
        | nil => exact .inl (by simp_all)
        | cons source before =>
          simp only [List.cons_append, List.cons.injEq] at h
          obtain ⟨rfl, hrest⟩ := h
          rcases ih hrest with hmem | ⟨earlier, hearlier, hrecord⟩
          · rcases List.mem_append.mp hmem with hincluded | hmem
            · cases included with
              | none => simp [directivesOf] at hincluded
              | some record => exact .inr ⟨domain, by simp, record, hpublished, hincluded⟩
            · exact .inl (List.mem_cons_of_mem _ hmem)
          · exact .inr ⟨earlier, List.mem_cons_of_mem _ hearlier, hrecord⟩

theorem followsIncludes_budget (domain : String) (limit : Nat) :
    FollowsIncludes r (budget r domain limit).asked := by
  intro before name after h hbefore
  obtain ⟨source, before, rfl⟩ := List.exists_cons_of_ne_nil hbefore
  rcases exists_record_or_budget_eq r domain with ⟨record, hpublished⟩ | ⟨outcome, -, hbudget⟩
  · rw [budget_eq_ledger hpublished] at h
    simp only [List.cons_append, List.cons.injEq] at h
    obtain ⟨rfl, hledger⟩ := h
    rcases includes_of_asked_ledger hledger with hmem | ⟨earlier, hearlier, other, hother, hmem⟩
    · exact ⟨domain, by simp, record, hpublished, includes_mem_countedTerms.mp hmem⟩
    · exact ⟨earlier, List.mem_cons_of_mem _ hearlier, other, hother,
        includes_mem_countedTerms.mp hmem⟩
  · simp [hbudget] at h

/-- Every budget asks for the domain first, and for at most `limit` names behind it. -/
theorem asked_budget_eq_cons (domain : String) (limit : Nat) :
    ∃ names, (budget r domain limit).asked = domain :: names ∧ names.length ≤ limit := by
  rcases exists_record_or_budget_eq r domain with ⟨record, hpublished⟩ | ⟨outcome, -, hbudget⟩
  · refine ⟨_, asked_budget hpublished limit, ?_⟩
    exact Nat.le_trans (List.length_filterMap_le _ _) Stream'.Seq.length_take_le
  · exact ⟨[], by rw [hbudget], Nat.zero_le _⟩

theorem asked_budget_of_terms {domain : String} {limit : Nat} {record : Record}
    {terms : List Counted} (hpublished : (published r domain).outcome = .ok (some record))
    (hterms : (record.expansion r).take (limit + 1) = terms.map Event.term) :
    (budget r domain limit).asked = domain :: (terms.take limit).filterMap Counted.target? := by
  rw [asked_budget hpublished, ← take_take _ (Nat.le_succ limit), hterms, ← List.map_take,
    List.filterMap_map]
  rfl

/-- How the report of a budget, the terms that it counts and the names that it asks for belong together. -/
structure Accounts (domain : String) (limit : Nat) (terms : List Counted) (asked : List String)
    (report : Report) : Prop where
  tally_eq : report.tally = Tally.count {} terms
  asked_eq : asked = domain :: (terms.take limit).filterMap Counted.target?
  total_le : report.total ≤ limit + 1
  withinLimit_iff : report.withinLimit = true ↔ report.total ≤ limit
  asked_within : report.withinLimit = true → asked.length = 1 + report.tally.includes
  asked_above : report.withinLimit = false → ∃ c, terms[limit]? = some c ∧
    asked.length = match c with
      | .includes _ => report.tally.includes
      | .address => 1 + report.tally.includes

theorem accounts_ofTally {domain : String} {limit : Nat} {terms : List Counted}
    (h : terms.length ≤ limit + 1) :
    Accounts domain limit terms (domain :: (terms.take limit).filterMap Counted.target?)
      (Report.ofTally limit (Tally.count {} terms)) := by
  have hwithin := Report.withinLimit_ofTally limit terms
  have htotal := Report.total_ofTally limit terms
  have hincludes : (Report.ofTally limit (Tally.count {} terms)).tally.includes =
      (terms.filterMap Counted.target?).length := by
    simp [Report.ofTally, Tally.includes_count]
  refine ⟨rfl, rfl, by rw [htotal]; exact h, by rw [hwithin, htotal], fun hle => ?_, fun habove => ?_⟩
  · rw [List.take_of_length_le (hwithin.mp hle), hincludes, List.length_cons, Nat.add_comm]
  · have hnot : ¬ terms.length ≤ limit := by rw [← hwithin, habove]; simp
    have hlast : limit < terms.length := by omega
    refine ⟨terms[limit], List.getElem?_eq_getElem hlast, ?_⟩
    have hsplit : terms = terms.take limit ++ [terms[limit]] := by
      rw [List.take_append_getElem hlast, List.take_of_length_le h]
    have hcount : (terms.filterMap Counted.target?).length =
        ((terms.take limit).filterMap Counted.target?).length +
          ([terms[limit]].filterMap Counted.target?).length := by
      rw [← List.length_append, ← List.filterMap_append, ← hsplit]
    rw [hincludes, hcount, List.length_cons]
    cases terms[limit] with
    | address => simp [List.filterMap_cons, Counted.target?, Nat.add_comm]
    | includes target => simp [Counted.target?]

/-- With any limit, and whatever the zone holds, a budget asks for at most one name more than the limit:
first for the domain, and then only for targets of includes in records that it has fetched. When there is
a report, the names behind the domain are the targets of the terms it counts, in order, and only the
target of a term above the limit is not asked for. -/
theorem budget_queries (r : Resolver) (domain : String) (limit : Nat) :
    (budget r domain limit).asked.length ≤ limit + 1 ∧
      (budget r domain limit).asked.head? = some domain ∧
      FollowsIncludes r (budget r domain limit).asked ∧
      ∀ report, (budget r domain limit).outcome = .ok (some report) →
        ∃ record terms, (published r domain).outcome = .ok (some record) ∧
          (record.expansion r).take (limit + 1) = terms.map Event.term ∧
          Accounts domain limit terms (budget r domain limit).asked report := by
  obtain ⟨names, hasked, hlength⟩ := asked_budget_eq_cons (r := r) domain limit
  refine ⟨by rw [hasked]; exact Nat.succ_le_succ hlength, by rw [hasked]; rfl,
    followsIncludes_budget domain limit, fun report hreport => ?_⟩
  obtain ⟨record, terms, hpublished, hterms, rfl⟩ := exists_terms_of_report hreport
  have hle : terms.length ≤ limit + 1 := by
    rw [← List.length_map (f := Event.term), ← hterms]
    exact Stream'.Seq.length_take_le
  refine ⟨record, terms, hpublished, hterms, ?_⟩
  rw [asked_budget_of_terms hpublished hterms]
  exact accounts_ofTally hle

theorem budget_queries_pingPong :
    (budget pingPong.answer "ping.example" 3).outcome = .ok (some ⟨⟨2, 2⟩, false⟩) ∧
      ∃ record terms, (published pingPong.answer "ping.example").outcome = .ok (some record) ∧
        (record.expansion pingPong.answer).take 4 = terms.map Event.term ∧
        Accounts "ping.example" 3 terms (budget pingPong.answer "ping.example" 3).asked
          ⟨⟨2, 2⟩, false⟩ := by
  have houtcome : (budget pingPong.answer "ping.example" 3).outcome =
      .ok (some ⟨⟨2, 2⟩, false⟩) := by
    rw [budget_eq_ledger published_pingPong]
    rfl
  exact ⟨houtcome, (budget_queries _ _ 3).2.2.2 _ houtcome⟩

end SenderAuth.Spf
