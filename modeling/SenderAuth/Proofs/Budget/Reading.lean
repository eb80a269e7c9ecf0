import SenderAuth.Dns.Zone
import SenderAuth.Proofs.Budget.Expansion

/-!
The budget of a domain is read off the unlimited expansion of its record: the counts are those of the
first entries, one more than the limit, the names asked for are the targets among the first entries up to
the limit, and the budget fails with the failure that it meets there.
-/
namespace SenderAuth.Spf
open Dns
open Stream' (Seq)

variable {r : Resolver}

def Event.target? : Event → Option String
  | .term c => c.target?
  | .failure _ => none

def Event.isInclude (event : Event) : Bool := event.target?.isSome

def Event.isAddress (event : Event) : Bool := event = .term .address

/-- The terms of the first entries of an expansion, or the failure among them. -/
def readEvents : List Event → Except Failure (List Counted)
  | [] => .ok []
  | .term c :: events => (readEvents events).map (c :: ·)
  | .failure e :: _ => .error e

@[simp] theorem readEvents_nil : readEvents [] = .ok [] := rfl

@[simp] theorem readEvents_term (c : Counted) (events : List Event) :
    readEvents (.term c :: events) = (readEvents events).map (c :: ·) := rfl

@[simp] theorem readEvents_failure (e : Failure) (events : List Event) :
    readEvents (.failure e :: events) = .error e := rfl

/-- The ledger writes down the first entries of the expansion. The names it asks for are the targets among
them, but for a target in the last place that there is room for. -/
theorem ledger_eq_read (room : Nat) (terms : List Counted) :
    (ledger r room terms).asked =
        ((expansion r terms).take (room - 1)).filterMap Event.target? ∧
      (ledger r room terms).outcome = readEvents ((expansion r terms).take room) := by
  induction room generalizing terms with
  | zero => simp
  | succ room ih =>
    match terms, room with
    | [], _ => simp
    | .address :: rest, room =>
      have hexpansion := expansion_cons_of_ok (r := r) (c := .address) rfl rest
      obtain ⟨hasked, houtcome⟩ := ih rest
      rw [ledger_address, hexpansion]
      refine ⟨?_, by simp [houtcome]⟩
      cases room with
      | zero => simp
      | succ room => simpa [List.filterMap_cons, Event.target?, Counted.target?] using hasked
    | .includes domain :: rest, 0 =>
      simp [ledger_one_includes, expansion_cons, Except.map]
    | .includes domain :: rest, room + 1 =>
      cases hpublished : (published r domain).outcome with
      | error e =>
        rw [ledger_includes_of_error hpublished,
          expansion_cons_of_error (behind_includes_of_error hpublished)]
        cases room <;> simp [Event.target?, Counted.target?, Except.map]
      | ok included =>
        obtain ⟨hasked, houtcome⟩ := ih (countedTerms (directivesOf included) ++ rest)
        rw [ledger_includes_of_ok hpublished,
          expansion_cons_of_ok (behind_includes_of_ok hpublished)]
        exact ⟨by simpa [Event.target?, Counted.target?] using hasked, by simp [houtcome]⟩

/-- The budget of a domain with an SPF record asks for the domain itself and then what the ledger asks
for, and its report counts what the ledger writes down. -/
theorem budget_eq_ledger {domain : String} {record : Record}
    (h : (published r domain).outcome = .ok (some record)) (limit : Nat) :
    budget r domain limit =
      ⟨domain :: (ledger r (limit + 1) (countedTerms record.directives)).asked,
        (ledger r (limit + 1) (countedTerms record.directives)).outcome.map fun terms =>
          some (Report.ofTally limit (Tally.count {} terms))⟩ := by
  rw [budget_of_some h, walk_eq_ledger (Nat.zero_le _)]
  have hroom : limit + 1 - Tally.total {} = limit + 1 := rfl
  rw [hroom, Lookup.asked_map, Lookup.outcome_map]
  cases (ledger r (limit + 1) (countedTerms record.directives)).outcome <;> rfl

theorem asked_budget {domain : String} {record : Record}
    (h : (published r domain).outcome = .ok (some record)) (limit : Nat) :
    (budget r domain limit).asked =
      domain :: ((record.expansion r).take limit).filterMap Event.target? := by
  rw [budget_eq_ledger h, (ledger_eq_read _ _).1]
  rfl

theorem outcome_budget {domain : String} {record : Record}
    (h : (published r domain).outcome = .ok (some record)) (limit : Nat) :
    (budget r domain limit).outcome =
      (readEvents ((record.expansion r).take (limit + 1))).map fun terms =>
        some (Report.ofTally limit (Tally.count {} terms)) := by
  rw [budget_eq_ledger h, (ledger_eq_read _ _).2]
  rfl

theorem readEvents_eq_ok_iff {events : List Event} {terms : List Counted} :
    readEvents events = .ok terms ↔ events = terms.map Event.term := by
  induction events generalizing terms with
  | nil => cases terms <;> simp
  | cons event events ih =>
    cases event with
    | failure e => cases terms <;> simp
    | term c =>
      cases hread : readEvents events with
      | error e =>
        have hne (rest : List Counted) : events ≠ rest.map Event.term := by
          rw [Ne, ← ih, hread]; simp
        cases terms <;> simp [hread, Except.map, hne]
      | ok rest =>
        have hevents : events = rest.map Event.term := ih.mp hread
        subst hevents
        cases terms <;> simp [hread, Except.map, List.map_inj_right]

/-- What a report counts are the first entries of the expansion, and there is no failure among them. -/
theorem exists_terms_of_report {domain : String} {limit : Nat} {report : Report}
    (h : (budget r domain limit).outcome = .ok (some report)) :
    ∃ record terms, (published r domain).outcome = .ok (some record) ∧
      (record.expansion r).take (limit + 1) = terms.map Event.term ∧
      report = Report.ofTally limit (Tally.count {} terms) := by
  rcases exists_record_or_budget_eq r domain with ⟨record, hpublished⟩ | ⟨outcome, hnone, hbudget⟩
  · rw [outcome_budget hpublished] at h
    cases hread : readEvents ((record.expansion r).take (limit + 1)) with
    | error e => simp [hread, Except.map] at h
    | ok terms =>
      have hreport : Report.ofTally limit (Tally.count {} terms) = report := by
        simpa [hread, Except.map] using h
      exact ⟨record, terms, hpublished, readEvents_eq_ok_iff.mp hread, hreport.symm⟩
  · rw [hbudget] at h
    exact absurd h (hnone report)

/-- Reading stops at the first failure. -/
theorem readEvents_eq_error_iff {events : List Event} {e : Failure} :
    readEvents events = .error e ↔ ∃ i : Nat, events[i]? = some (.failure e) ∧
      ∀ j < i, ∃ c, events[j]? = some (.term c) := by
  induction events with
  | nil => simp
  | cons event events ih =>
    cases event with
    | failure e' =>
      constructor
      · intro h
        exact ⟨0, by simpa using h, by simp⟩
      · rintro ⟨i, hi, hterms⟩
        cases i with
        | zero => simpa using hi
        | succ i => simpa using hterms 0 (by omega)
    | term c =>
      have hmap : (readEvents events).map (c :: ·) = .error e ↔ readEvents events = .error e := by
        cases readEvents events <;> simp [Except.map]
      rw [readEvents_term, hmap, ih]
      constructor
      · rintro ⟨i, hi, hterms⟩
        refine ⟨i + 1, hi, fun j hj => ?_⟩
        cases j with
        | zero => exact ⟨c, rfl⟩
        | succ j => exact hterms j (by omega)
      · rintro ⟨i, hi, hterms⟩
        cases i with
        | zero => simp at hi
        | succ i => exact ⟨i, hi, fun j hj => hterms (j + 1) (by omega)⟩

/-- A failure stands right behind one of the first `limit` terms. -/
def FailsWithin (events : Seq Event) (limit : Nat) (e : Failure) : Prop :=
  ∃ i < limit, (∃ c, events.get? i = some (.term c)) ∧ events.get? (i + 1) = some (.failure e)

theorem readEvents_take_eq_error_iff (terms : List Counted) (limit : Nat) (e : Failure) :
    readEvents ((expansion r terms).take (limit + 1)) = .error e ↔
      FailsWithin (expansion r terms) limit e := by
  simp only [readEvents_eq_error_iff, Seq.getElem?_take]
  constructor
  · rintro ⟨i, hi, -⟩
    by_cases hlimit : i < limit + 1
    · rw [if_pos hlimit] at hi
      cases i with
      | zero => exact absurd hi (get?_zero_ne_failure terms e)
      | succ i => exact ⟨i, by omega, exists_term_of_lt hi (Nat.lt_succ_self i), hi⟩
    · simp [hlimit] at hi
  · rintro ⟨i, hlimit, -, hi⟩
    refine ⟨i + 1, by rw [if_pos (by omega), hi], fun j hj => ?_⟩
    rw [if_pos (by omega)]
    exact exists_term_of_lt hi hj

theorem outcome_budget_eq_error_iff {domain : String} {record : Record}
    (h : (published r domain).outcome = .ok (some record)) (limit : Nat) (e : Failure) :
    (budget r domain limit).outcome = .error e ↔ FailsWithin (record.expansion r) limit e := by
  rw [Record.expansion, ← readEvents_take_eq_error_iff, outcome_budget h, Record.expansion]
  cases readEvents ((expansion r (countedTerms record.directives)).take (limit + 1)) <;>
    simp [Except.map]

/-- Without a failure the first entries are terms, and the report counts them. -/
theorem exists_terms_of_not_failsWithin {domain : String} {limit : Nat} {record : Record}
    (h : (published r domain).outcome = .ok (some record))
    (hnone : ∀ e, ¬ FailsWithin (record.expansion r) limit e) :
    ∃ terms, (record.expansion r).take (limit + 1) = terms.map Event.term ∧
      (budget r domain limit).outcome =
        .ok (some (Report.ofTally limit (Tally.count {} terms))) := by
  rw [outcome_budget h]
  cases hread : readEvents ((record.expansion r).take (limit + 1)) with
  | error e => exact absurd ((readEvents_take_eq_error_iff _ limit e).mp hread) (hnone e)
  | ok terms => exact ⟨terms, readEvents_eq_ok_iff.mp hread, rfl⟩

theorem take_take {α : Type} (s : Seq α) {m n : Nat} (h : m ≤ n) :
    (s.take n).take m = s.take m := by
  apply List.ext_getElem?
  intro i
  by_cases hi : i < m
  · simp [Seq.getElem?_take, hi, Nat.lt_of_lt_of_le hi h]
  · simp [Seq.getElem?_take, hi]

theorem length_take_le_iff {α : Type} (s : Seq α) (n : Nat) :
    (s.take (n + 1)).length ≤ n ↔ s.length' ≤ n := by
  rw [← List.getElem?_eq_none_iff, Seq.getElem?_take, if_pos (Nat.lt_succ_self n),
    Seq.length'_le_iff]
  rfl

theorem countP_isInclude (terms : List Counted) :
    (terms.map Event.term).countP Event.isInclude = (Tally.count {} terms).includes := by
  rw [List.countP_map, Tally.includes_count, List.length_filterMap_eq_countP, Nat.zero_add]
  rfl

theorem countP_isAddress (terms : List Counted) :
    (terms.map Event.term).countP Event.isAddress = (Tally.count {} terms).addresses := by
  rw [List.countP_map, Tally.addresses_count, List.count_eq_countP, Nat.zero_add]
  apply List.countP_congr
  intro c _
  simp [Event.isAddress]

/-- What it means that an outcome is the budget that an expansion leaves with a limit. -/
structure IsBudgetOf (events : Seq Event) (limit : Nat)
    (outcome : Except Failure (Option Report)) : Prop where
  error_iff : ∀ e, outcome = .error e ↔ FailsWithin events limit e
  report : (∀ e, ¬ FailsWithin events limit e) → ∃ report, outcome = .ok (some report) ∧
    report.tally.includes = (events.take (limit + 1)).countP Event.isInclude ∧
    report.tally.addresses = (events.take (limit + 1)).countP Event.isAddress ∧
    (report.withinLimit = true ↔ events.length' ≤ limit)

/-- With any limit, and where records include each other, the budget of a domain is that of the unlimited
expansion of its record. -/
theorem isBudgetOf_expansion (r : Resolver) (domain : String) (limit : Nat) (record : Record)
    (h : (published r domain).outcome = .ok (some record)) :
    IsBudgetOf (record.expansion r) limit (budget r domain limit).outcome := by
  refine ⟨outcome_budget_eq_error_iff h limit, fun hnone => ?_⟩
  obtain ⟨terms, hterms, houtcome⟩ := exists_terms_of_not_failsWithin h hnone
  refine ⟨Report.ofTally limit (Tally.count {} terms), houtcome, ?_, ?_, ?_⟩
  · rw [hterms, countP_isInclude]; rfl
  · rw [hterms, countP_isAddress]; rfl
  · rw [Report.withinLimit_ofTally, ← length_take_le_iff, hterms, List.length_map]

def pingPong : Zone :=
  (Zone.empty.addTxt "ping.example" ["v=spf1 a include:pong.example -all"]).addTxt
    "pong.example" ["v=spf1 include:ping.example -all"]

theorem published_pingPong : (published pingPong.answer "ping.example").outcome =
    .ok (some (Record.parse "v=spf1 a include:pong.example -all")) := by rfl

theorem isBudgetOf_expansion_pingPong :
    (published pingPong.answer "ping.example").outcome =
        .ok (some (Record.parse "v=spf1 a include:pong.example -all")) ∧
      IsBudgetOf ((Record.parse "v=spf1 a include:pong.example -all").expansion pingPong.answer) 3
        (budget pingPong.answer "ping.example" 3).outcome :=
  ⟨published_pingPong, isBudgetOf_expansion _ _ 3 _ published_pingPong⟩

example : budget pingPong.answer "ping.example" 3 =
    ⟨["ping.example", "pong.example", "ping.example"], .ok (some ⟨⟨2, 2⟩, false⟩)⟩ := by
  rw [budget_eq_ledger published_pingPong]
  rfl

end SenderAuth.Spf
