import SenderAuth.Proofs.Budget.Depth
import SenderAuth.Proofs.Budget.Sum
import SenderAuth.Proofs.Record.Terms

/-!
Budgets in machine words of 64 bits. A walk counts at most one term above its limit and reads no record that
lies deeper than the limit, so that all its numbers fit a word where the number above the limit does. Only the
greatest limit has no such number above it, and there are domains with more terms than that.
-/
namespace SenderAuth.Spf
open Dns Text

variable {r : Resolver} {limit : Nat} {guarded : Bool} {domain : String}

/-- Both counters and their sum are numbers of 64 bits. -/
structure Tally.FitsWord (t : Tally) : Prop where
  includes : t.includes < UInt64.size
  addresses : t.addresses < UInt64.size
  total : t.total < UInt64.size

theorem Tally.fitsWord_of_total {t : Tally} (h : t.total < UInt64.size) : t.FitsWord where
  includes := (Nat.le_add_right t.includes t.addresses).trans_lt h
  addresses := (Nat.le_add_left t.addresses t.includes).trans_lt h
  total := h

namespace WalkState

/-- What has been counted is at most one above the limit, and what is read lies no deeper than the limit. -/
structure Bounded (limit : Nat) (s : WalkState) : Prop where
  total_le : s.tally.total ≤ limit + 1
  depth_le : ∀ reading ∈ s.readings, reading.depth ≤ limit

theorem bounded_start (limit : Nat) (ds : List Directive) : (start ds).Bounded limit :=
  ⟨Nat.zero_le _, by simp [start]⟩

theorem bounded_enter {reading : Reading} {outer : List Reading} {t : Tally}
    (htotal : t.total ≤ limit + 1) (hdepth : reading.depth < limit)
    (houter : ∀ f ∈ reading :: outer, f.depth ≤ limit) (included : Option Record) :
    (enter reading outer t included).Bounded limit := by
  cases included with
  | none => exact ⟨htotal, houter⟩
  | some record => exact ⟨htotal, List.forall_mem_cons.2 ⟨hdepth, houter⟩⟩

/-- What one step keeps. -/
theorem Bounded.of_leads {s s' : WalkState} (h : s.Bounded limit) (hleads : Leads r limit true s s') :
    s'.Bounded limit := by
  cases hleads.moves with
  | stop => exact ⟨h.total_le, (List.forall_mem_cons.1 h.depth_le).2⟩
  | finish => exact ⟨h.total_le, (List.forall_mem_cons.1 h.depth_le).2⟩
  | passOver => exact ⟨h.total_le, depth_le_of_read h.depth_le⟩
  | @address _ _ _ _ t hfull =>
    have htotal : t.countAddress.total ≤ limit + 1 := by
      rw [Tally.total_countAddress]; omega
    exact ⟨htotal, depth_le_of_read h.depth_le⟩
  | @includes _ _ _ _ _ t hfull =>
    have htotal : t.countInclude.total ≤ limit + 1 := by
      rw [Tally.total_countInclude]; omega
    exact ⟨htotal, depth_le_of_read h.depth_le⟩
  | turnBack => exact ⟨h.total_le, h.depth_le⟩
  | follow _ hguard =>
    have hdepth := not_and.1 hguard rfl
    exact bounded_enter h.total_le (Nat.lt_of_not_le hdepth) h.depth_le _

/-- What a whole walk keeps. -/
theorem Reached.bounded {ds : List Directive} {s : WalkState} (h : Reached r limit true ds s) :
    s.Bounded limit := by
  induction h with
  | refl => exact bounded_start limit ds
  | tail _ hleads ih => exact ih.of_leads hleads

/-- Above the limit a step neither asks nor counts. -/
theorem exists_of_step_full {s : WalkState} {x : Lookup WalkState} (hfull : limit < s.tally.total)
    (h : s.step r limit guarded = some x) : ∃ s', x = pure s' ∧ s'.tally = s.tally := by
  match s, h with
  | ⟨_ :: _, some _, _⟩, h =>
    cases h
    exact ⟨_, if_pos hfull, rfl⟩
  | ⟨⟨_, []⟩ :: _, none, _⟩, h =>
    cases h
    exact ⟨_, rfl, rfl⟩
  | ⟨⟨_, _ :: _⟩ :: _, none, _⟩, h =>
    cases h
    exact ⟨_, if_pos hfull, rfl⟩

namespace RunsTo

/-- Once above the limit, a run ends with what is counted. -/
theorem outcome_of_full {s : WalkState} {x : Lookup Tally} (h : RunsTo r limit guarded s x)
    (hfull : limit < s.tally.total) : x.outcome = .ok s.tally := by
  induction h with
  | done => rfl
  | fail h he =>
    obtain ⟨s', rfl, -⟩ := exists_of_step_full hfull h
    cases he
  | next h hok _ ih =>
    obtain ⟨s', rfl, htally⟩ := exists_of_step_full hfull h
    cases hok
    rw [← htally] at hfull ⊢
    exact ih hfull

/-- From each state that it goes through, a run comes to the same end. -/
theorem of_reflTransGen {s s' : WalkState} {x : Lookup Tally} (h : RunsTo r limit guarded s x)
    (hreach : Relation.ReflTransGen (Leads r limit guarded) s s') :
    ∃ y, RunsTo r limit guarded s' y ∧ y.outcome = x.outcome := by
  induction hreach with
  | refl => exact ⟨x, h, rfl⟩
  | tail _ hleads ih =>
    obtain ⟨y, hy, houtcome⟩ := ih
    obtain ⟨z, hz, hok⟩ := hleads
    cases hy with
    | done hnone => rw [hz] at hnone; cases hnone
    | fail hsome he =>
      obtain rfl := Option.some.inj (hz.symm.trans hsome)
      rw [hok] at he
      cases he
    | next hsome hok' hrest =>
      obtain rfl := Option.some.inj (hz.symm.trans hsome)
      obtain rfl := Except.ok.inj (hok.symm.trans hok')
      exact ⟨_, hrest, houtcome⟩

/-- What a run ends with is what its last state has counted. -/
theorem exists_tally {s : WalkState} {x : Lookup Tally} {t : Tally} (h : RunsTo r limit guarded s x)
    (hok : x.outcome = .ok t) :
    ∃ s', Relation.ReflTransGen (Leads r limit guarded) s s' ∧ s'.tally = t := by
  induction h with
  | @done s _ => exact ⟨s, .refl, Except.ok.inj hok⟩
  | fail _ he => cases hok
  | next h hnext _ ih =>
    obtain ⟨s', hreach, htally⟩ := ih hok
    exact ⟨s', .head ⟨_, h, hnext⟩ hreach, htally⟩

end RunsTo
end WalkState
open WalkState

/-- The states that finding the budget of a domain goes through; without a record there is nothing to walk
over. -/
def BudgetReached (r : Resolver) (domain : String) (limit : Nat) (s : WalkState) : Prop :=
  ∃ record, (published r domain).outcome = .ok (some record) ∧
    Reached r limit true record.directives s

/-- Whoever counts a term above the limit reports it. -/
theorem outcome_budget_of_full {s : WalkState} (h : BudgetReached r domain limit s)
    (hfull : limit < s.tally.total) :
    (budget r domain limit).outcome = .ok (some (Report.ofTally limit s.tally)) := by
  obtain ⟨record, hpublished, hreached⟩ := h
  obtain ⟨x, hx, hwalk⟩ := (RunsTo.walk_start r limit record.directives).of_reflTransGen hreached
  rw [budget_of_some hpublished]
  simp only [← hwalk, hx.outcome_of_full hfull, Except.map]

/-- A report tells what the last state has counted. -/
theorem exists_reached_of_report {report : Report}
    (h : (budget r domain limit).outcome = .ok (some report)) :
    ∃ s, BudgetReached r domain limit s ∧ s.tally = report.tally ∧
      report = Report.ofTally limit s.tally := by
  rcases exists_record_or_budget_eq r domain with ⟨record, hpublished⟩ | ⟨outcome, hnone, hbudget⟩
  · rw [budget_of_some hpublished] at h
    cases hwalk : (walk r limit 0 {} record.directives).outcome with
    | error e => simp [hwalk, Except.map] at h
    | ok t =>
      obtain rfl : Report.ofTally limit t = report := by simpa [hwalk, Except.map] using h
      obtain ⟨s, hreached, rfl⟩ := (RunsTo.walk_start r limit record.directives).exists_tally hwalk
      exact ⟨s, ⟨record, hpublished, hreached⟩, rfl, rfl⟩
  · rw [hbudget] at h
    exact absurd h (hnone report)

/-- Every tally on the way to the budget of a domain, and the one that is reported, fits words of 64 bits. -/
def BudgetFitsWord (r : Resolver) (domain : String) (limit : Nat) : Prop :=
  (∀ s, BudgetReached r domain limit s → s.tally.FitsWord) ∧
    ∀ report, (budget r domain limit).outcome = .ok (some report) → report.tally.FitsWord

theorem budgetFitsWord_iff_forall_reached :
    BudgetFitsWord r domain limit ↔ ∀ s, BudgetReached r domain limit s → s.tally.FitsWord := by
  refine ⟨And.left, fun h => ⟨h, fun report hreport => ?_⟩⟩
  obtain ⟨s, hreached, htally, -⟩ := exists_reached_of_report hreport
  exact htally ▸ h s hreached

/-- Whatever the resolver answers, a walk with a limit of 64 bits counts at most one term above its limit and
reads no record at a depth that takes more than 64 bits. All its numbers are of 64 bits if and only if the limit
is not the greatest of them, or nothing above the limit is reported. -/
theorem budgetFitsWord_iff (r : Resolver) (domain : String) (limit : UInt64) :
    (∀ s, BudgetReached r domain limit.toNat s →
      s.tally.total ≤ limit.toNat + 1 ∧ ∀ reading ∈ s.readings, reading.depth < UInt64.size) ∧
    (BudgetFitsWord r domain limit.toNat ↔ limit.toNat + 1 < UInt64.size ∨
      ∀ report, (budget r domain limit.toNat).outcome = .ok (some report) →
        report.withinLimit = true) := by
  have hbounded {s : WalkState} (h : BudgetReached r domain limit.toNat s) : s.Bounded limit.toNat := by
    obtain ⟨record, -, hreached⟩ := h
    exact hreached.bounded
  have hlimit : limit.toNat < UInt64.size := limit.toNat_lt_size
  refine ⟨fun s h => ⟨(hbounded h).total_le, fun reading hmem => ?_⟩, ?_⟩
  · exact ((hbounded h).depth_le reading hmem).trans_lt hlimit
  rw [budgetFitsWord_iff_forall_reached]
  constructor
  · intro hfits
    by_cases hgreatest : limit.toNat + 1 < UInt64.size
    · exact .inl hgreatest
    · refine .inr fun report hreport => ?_
      obtain ⟨s, hreached, -, rfl⟩ := exists_reached_of_report hreport
      have htotal := (hfits s hreached).total
      exact decide_eq_true (by omega)
  · rintro (hless | hwithin) s hreached
    · exact Tally.fitsWord_of_total ((hbounded hreached).total_le.trans_lt hless)
    · have htotal : s.tally.total ≤ limit.toNat := by
        by_contra hfull
        have hreport := outcome_budget_of_full hreached (Nat.lt_of_not_le hfull)
        exact hfull (of_decide_eq_true (hwithin _ hreport))
      exact Tally.fitsWord_of_total (htotal.trans_lt hlimit)

def stage (n : Nat) : String := String.singleton (Char.ofNat ('a'.toNat + n))

/-- The term that stands 256 times in the record of a domain: an address in the first one, and an include of
the domain in front in each of the others. -/
def stageCounted : Nat → Counted
  | 0 => .address
  | n + 1 => .includes (stage n)

def stageTerm : Nat → String
  | 0 => "a"
  | n + 1 => "include:" ++ stage n

def stageText (n : Nat) : String := spell (.replicate 256 (stageTerm n).toList)

/-- The first `n` domains. None of them includes itself, and yet the terms of eight of them take more than 64
bits to count. -/
def cascade : Nat → Zone
  | 0 => .empty
  | n + 1 => (cascade n).addTxt (stage n) [stageText n]

theorem failures_cascade (n : Nat) : (cascade n).failures = [] := by
  induction n with
  | zero => rfl
  | succ n ih => exact ih

theorem transientFree_cascade (n : Nat) : TransientFree (cascade n).answer :=
  Zone.transientFree_answer (by simp [failures_cascade])

theorem lower_stage_ne : ∀ n < 8, ∀ i < n, lower (stage i) ≠ lower (stage n) := by decide +kernel

theorem answer_cascade {i n : Nat} (hi : i < n) (hn : n ≤ 8) :
    (cascade n).answer (stage i) = .ok [stageText i] := by
  have hrecords : (cascade n).records? (stage i) = some [stageText i] := by
    induction n with
    | zero => cases hi
    | succ n ih =>
      rw [cascade, Zone.records?_addTxt]
      rcases Nat.lt_succ_iff_lt_or_eq.1 hi with hlt | rfl
      · rw [if_neg (lower_stage_ne n hn i hlt), ih hlt (Nat.le_of_succ_le hn)]
      · rw [if_pos rfl]
  simp [Zone.answer, Zone.failure?, failures_cascade, hrecords]

theorem read_stageTerm : ∀ n < 8, IsWord (stageTerm n).toList ∧
    (Term.read (stageTerm n).toList).directive?.bind Directive.counted? = some (stageCounted n) := by
  decide +kernel

theorem countedTerms_parse_stageText {n : Nat} (h : n < 8) :
    countedTerms (Record.parse (stageText n)).directives = .replicate 256 (stageCounted n) := by
  obtain ⟨hword, hread⟩ := read_stageTerm n h
  rw [stageText, parse_spell fun w hw => List.eq_of_mem_replicate hw ▸ hword, List.map_replicate]
  simp only [Record.ofTerms, countedTerms, List.filterMap_filterMap]
  exact List.filterMap_replicate_of_some hread

theorem behind_cascade {n : Nat} (h : n < 8) : (Counted.includes (stage n)).behind (cascade 8).answer =
    .ok (.replicate 256 (stageCounted n)) := by
  have hspf : isSpf (stageText n) = true := isSpf_spell _
  rw [behind_includes_of_ok (outcome_published_of_isSpf hspf (answer_cascade h le_rfl)), directivesOf,
    Option.elim_some, countedTerms_parse_stageText h]

theorem weight_cascade (room : Nat) {n : Nat} (h : n < 8) :
    weight (cascade 8).answer room (.includes (stage n)) =
      1 + size (cascade 8).answer room (.replicate 256 (stageCounted n)) := by
  simp only [weight, behind_cascade h]

/-- What a domain comes to grows by a factor of 256 with each domain that it is built on. -/
theorem pow_le_size_cascade (room : Nat) {n : Nat} (h : n < 8) :
    min room (256 ^ (n + 1)) ≤ size (cascade 8).answer room (.replicate 256 (stageCounted n)) := by
  induction n with
  | zero =>
    have hweight := one_le_weight (cascade 8).answer room (stageCounted 0)
    rw [size_replicate (transientFree_cascade 8)]
    omega
  | succ n ih =>
    have hn : n < 8 := Nat.lt_of_succ_lt h
    have hprevious := ih hn
    rw [size_replicate (transientFree_cascade 8), stageCounted, weight_cascade room hn, pow_succ]
    omega

theorem totalOf_cascade {limit : Nat} (h : limit < 256 ^ 8) :
    totalOf (cascade 8).answer limit (stage 7) = limit + 1 := by
  have hseven : 7 < 8 := Nat.lt_succ_self 7
  have htotal := weight_includes (transientFree_cascade 8) limit (stage 7)
  rw [weight_cascade (limit + 1) hseven] at htotal
  have hlow : min (limit + 1) (256 ^ 8) ≤
      size (cascade 8).answer (limit + 1) (.replicate 256 (stageCounted 7)) :=
    pow_le_size_cascade (limit + 1) hseven
  have hhigh : size (cascade 8).answer (limit + 1) (.replicate 256 (stageCounted 7)) ≤ limit + 1 :=
    Stream'.Seq.length_take_le
  omega

/-- The cascade is above the greatest limit of 64 bits, and then its total takes more than 64 bits. -/
theorem not_forall_budgetFitsWord : ¬ ∀ (zone : Zone) (domain : String) (limit : UInt64),
    BudgetFitsWord zone.answer domain limit.toNat ∧
      ∀ s, BudgetReached zone.answer domain limit.toNat s →
        ∀ reading ∈ s.readings, reading.depth < UInt64.size := by
  intro h
  obtain ⟨⟨-, hfits⟩, -⟩ := h (cascade 8) (stage 7) 18446744073709551615
  have hlimit : UInt64.toNat 18446744073709551615 + 1 = UInt64.size := rfl
  have hroom : UInt64.toNat 18446744073709551615 < 256 ^ 8 := UInt64.toNat_lt_size _
  have htotal := totalOf_cascade hroom
  obtain ⟨report, houtcome, hreport⟩ := exists_report_of_totalOf_ne_zero (htotal.trans_ne (Nat.succ_ne_zero _))
  have hless : report.total < UInt64.size := (hfits report houtcome).total
  rw [hreport, htotal, hlimit] at hless
  exact absurd hless (Nat.lt_irrefl _)

end SenderAuth.Spf
