import SenderAuth.Proofs.Budget.Reading

/-!
Budgets of different domains with one limit. Where no name fails for now, the total of a domain is the sum
over its terms, one for each and the total of the target besides for an include, cut off one above the
limit. This holds where records include each other, since both sides are cut off at the same height.
-/
namespace SenderAuth.Spf
open Dns
open Stream' (Seq)

variable {r : Resolver}

theorem exists_published_eq_ok (h : TransientFree r) (domain : String) :
    ∃ found, (published r domain).outcome = .ok found := by
  obtain ⟨answer, hanswer⟩ := h.exists_ofAnswer_eq_ok domain
  exact ⟨_, by rw [outcome_published, hanswer]; rfl⟩

theorem exists_behind_eq_ok (h : TransientFree r) (c : Counted) : ∃ terms, c.behind r = .ok terms := by
  cases c with
  | address => exact ⟨[], rfl⟩
  | includes domain =>
    obtain ⟨found, hfound⟩ := exists_published_eq_ok h domain
    exact ⟨_, behind_includes_of_ok hfound⟩

theorem failure_notMem_expansion (h : TransientFree r) (terms : List Counted) (e : Failure) :
    Event.failure e ∉ expansion r terms := by
  rw [Seq.mem_iff_exists_get?]
  rintro ⟨i, hi⟩
  cases i with
  | zero => exact get?_zero_ne_failure terms e hi.symm
  | succ i =>
    obtain ⟨c, -, hbehind⟩ := exists_term_of_get?_succ hi.symm
    obtain ⟨included, hok⟩ := exists_behind_eq_ok h c
    simp [hbehind e rfl] at hok

theorem length_take_append {α : Type} (s t : Seq α) (n : Nat) :
    ((s.append t).take n).length = min n ((s.take n).length + (t.take n).length) := by
  induction n generalizing s with
  | zero => simp
  | succ n ih =>
    have hle : (t.take (n + 1)).length ≤ n + 1 := Seq.length_take_le
    have hcut : (t.take n).length = min n (t.take (n + 1)).length := by
      rw [← take_take t (Nat.le_succ n), List.length_take]
    cases s with
    | nil => simp [hle]
    | cons x s =>
      simp only [Seq.cons_append, Seq.take_succ_cons, List.length_cons, ih, hcut]
      omega

/-- The number of terms in an expansion, as far as there is room for them. -/
def size (r : Resolver) (room : Nat) (terms : List Counted) : Nat :=
  ((expansion r terms).take room).length

@[simp] theorem size_nil (room : Nat) : size r room [] = 0 := by simp [size]

theorem size_append (h : TransientFree r) (room : Nat) (xs ys : List Counted) :
    size r room (xs ++ ys) = min room (size r room xs + size r room ys) := by
  rw [size, expansion_append, followedBy_of_no_failure (failure_notMem_expansion h xs),
    length_take_append]
  rfl

theorem size_of_less_room {small large : Nat} (h : small ≤ large) (terms : List Counted) :
    size r small terms = min small (size r large terms) := by
  rw [size, size, ← take_take _ h, List.length_take]

/-- What a term adds to the size of an expansion: itself and what is behind it. -/
def weight (r : Resolver) (room : Nat) (c : Counted) : Nat :=
  match c.behind r with
  | .ok terms => 1 + size r room terms
  | .error _ => 1

theorem one_le_weight (r : Resolver) (room : Nat) (c : Counted) : 1 ≤ weight r room c := by
  unfold weight
  split <;> omega

theorem size_cons (h : TransientFree r) (room : Nat) (c : Counted) (rest : List Counted) :
    size r room (c :: rest) = min room (weight r room c + size r room rest) := by
  obtain ⟨terms, hbehind⟩ := exists_behind_eq_ok h c
  have hweight : weight r room c = 1 + size r room terms := by simp [weight, hbehind]
  cases room with
  | zero => simp [size]
  | succ room =>
    have hsize : size r (room + 1) (c :: rest) = size r room (terms ++ rest) + 1 := by
      simp [size, expansion_cons_of_ok hbehind]
    -- behind the term there is one place less, which the cut at `room + 1` makes up for
    have hcut (xs : List Counted) : size r room xs = min room (size r (room + 1) xs) :=
      size_of_less_room (Nat.le_succ room) xs
    rw [hsize, size_append h, hweight, hcut terms, hcut rest]
    omega

/-- The size of an expansion is the sum of what its terms add, cut off where the room ends. -/
theorem size_eq_min_sum (h : TransientFree r) (room : Nat) (terms : List Counted) :
    size r room terms = min room (terms.map (weight r room)).sum := by
  induction terms with
  | nil => simp
  | cons c rest ih =>
    rw [size_cons h, ih, List.map_cons, List.sum_cons]
    omega

theorem size_replicate (h : TransientFree r) (room count : Nat) (c : Counted) :
    size r room (.replicate count c) = min room (count * weight r room c) := by
  rw [size_eq_min_sum h, List.map_replicate, List.sum_replicate_nat]

/-- Where nothing fails for now a report counts the first terms of the record. -/
theorem exists_terms_of_transientFree (h : TransientFree r) {domain : String} {record : Record}
    (hpublished : (published r domain).outcome = .ok (some record)) (limit : Nat) :
    ∃ terms, (record.expansion r).take (limit + 1) = terms.map Event.term ∧
      (budget r domain limit).outcome =
        .ok (some (Report.ofTally limit (Tally.count {} terms))) := by
  refine exists_terms_of_not_failsWithin hpublished ?_
  rintro e ⟨i, -, -, hfailure⟩
  exact failure_notMem_expansion h _ e (Seq.get?_mem hfailure)

/-- Where nothing fails for now a record has a report, and its total is the size of the expansion. -/
theorem exists_report (h : TransientFree r) {domain : String} {record : Record}
    (hpublished : (published r domain).outcome = .ok (some record)) (limit : Nat) :
    ∃ report, (budget r domain limit).outcome = .ok (some report) ∧
      report.total = size r (limit + 1) (countedTerms record.directives) ∧
      (report.withinLimit = true ↔ size r (limit + 1) (countedTerms record.directives) ≤ limit) := by
  obtain ⟨terms, hterms, houtcome⟩ := exists_terms_of_transientFree h hpublished limit
  have hsize : size r (limit + 1) (countedTerms record.directives) = terms.length := by
    rw [← List.length_map (f := Event.term), ← hterms]
    rfl
  exact ⟨_, houtcome, by rw [Report.total_ofTally, hsize],
    by rw [Report.withinLimit_ofTally, hsize]⟩

/-- The total of a domain's budget, nothing where there is no report. -/
def totalOf (r : Resolver) (limit : Nat) (domain : String) : Nat :=
  match (budget r domain limit).outcome with
  | .ok (some report) => report.total
  | .ok none | .error _ => 0

theorem exists_report_of_totalOf_ne_zero {limit : Nat} {domain : String}
    (h : totalOf r limit domain ≠ 0) :
    ∃ report, (budget r domain limit).outcome = .ok (some report) ∧
      report.total = totalOf r limit domain := by
  unfold totalOf at h ⊢
  split at h
  · rename_i report hreport
    exact ⟨report, hreport, rfl⟩
  · exact absurd rfl h
  · exact absurd rfl h

theorem weight_address (room : Nat) : weight r room .address = 1 := by
  simp [weight, Counted.behind]

theorem weight_includes (h : TransientFree r) (limit : Nat) (domain : String) :
    weight r (limit + 1) (.includes domain) = 1 + totalOf r limit domain := by
  obtain ⟨found, hpublished⟩ := exists_published_eq_ok h domain
  have hbehind := behind_includes_of_ok hpublished
  cases found with
  | none => simp [weight, hbehind, totalOf, budget_of_none hpublished, directivesOf]
  | some record =>
    obtain ⟨report, hreport, htotal, -⟩ := exists_report h hpublished limit
    simp [weight, hbehind, totalOf, hreport, htotal, directivesOf]

def Record.addressCount (record : Record) : Nat :=
  record.directives.countP fun d => d.mechanism.kind = .a

/-- The targets of the includes of a record, in order and as often as they stand there. -/
def Record.targets (record : Record) : List String :=
  record.directives.filterMap fun d =>
    match d.mechanism with
    | .includes target => some target
    | _ => none

theorem sum_weight (h : TransientFree r) (limit : Nat) (record : Record) :
    ((countedTerms record.directives).map (weight r (limit + 1))).sum =
      record.addressCount + (record.targets.map fun target => 1 + totalOf r limit target).sum := by
  unfold Record.addressCount Record.targets
  induction record.directives with
  | nil => rfl
  | cons d ds ih =>
    obtain ⟨q, m⟩ := d
    cases m with
    | a target =>
      rw [countedTerms_cons_of_some (d := ⟨q, .a target⟩) rfl]
      simp [ih, weight_address, Mechanism.kind]
      omega
    | includes target =>
      rw [countedTerms_cons_of_some (d := ⟨q, .includes target⟩) rfl]
      simp [ih, weight_includes h, Mechanism.kind]
      omega
    | _ =>
      rw [countedTerms_cons_of_none rfl, ih]
      simp [Mechanism.kind]

/-- Where no name fails for now, the budget of a domain is made up of its own addresses and of the budgets
of its targets, cut off one above the limit, and is within the limit if their sum is. -/
theorem budget_eq_min_sum (r : Resolver) (h : TransientFree r) (domain : String) (limit : Nat)
    (record : Record) (hpublished : (published r domain).outcome = .ok (some record)) :
    let sum := record.addressCount +
      (record.targets.map fun target => 1 + totalOf r limit target).sum
    ∃ report, (budget r domain limit).outcome = .ok (some report) ∧
      report.total = min (limit + 1) sum ∧ (report.withinLimit = true ↔ sum ≤ limit) := by
  intro sum
  obtain ⟨report, hreport, htotal, hwithin⟩ := exists_report h hpublished limit
  have hsize : size r (limit + 1) (countedTerms record.directives) = min (limit + 1) sum := by
    rw [size_eq_min_sum h, sum_weight h]
  refine ⟨report, hreport, htotal.trans hsize, ?_⟩
  rw [hwithin, hsize]
  omega

theorem budget_eq_min_sum_pingPong :
    TransientFree pingPong.answer ∧ (published pingPong.answer "ping.example").outcome =
        .ok (some (Record.parse "v=spf1 a include:pong.example -all")) ∧
      ∃ report, (budget pingPong.answer "ping.example" 3).outcome = .ok (some report) ∧
        report.total = min 4 (1 + (1 + totalOf pingPong.answer 3 "pong.example")) ∧
        (report.withinLimit = true ↔ 1 + (1 + totalOf pingPong.answer 3 "pong.example") ≤ 3) := by
  have hzone : TransientFree pingPong.answer :=
    Zone.transientFree_answer (by simp [pingPong, Zone.empty, Zone.addTxt])
  exact ⟨hzone, published_pingPong, budget_eq_min_sum _ hzone _ 3 _ published_pingPong⟩

end SenderAuth.Spf
