import SenderAuth.Spf.Budget

/-!
The budget of a domain in machine words of 64 bits, whose sums wrap around. A walk counts at most one term
above its limit, so that nothing wraps around where the number above the limit is a word too: then the words
are the numbers of the walk, and the reports are the same.
-/
namespace SenderAuth.Spf
open Dns

variable {r : Resolver}

/-- A walk counts at most one term above its limit. -/
theorem total_le_of_walk {limit depth : Nat} {t : Tally} {ds : List Directive}
    (ht : t.total ≤ limit + 1) :
    ∀ t', (walk r limit depth t ds).outcome = .ok t' → t'.total ≤ limit + 1 := by
  fun_induction walk r limit depth t ds with
  | case1 | case2 =>
    rintro _ ⟨⟩
    exact ht
  | case3 depth t d ds hfull hd ih => exact ih ht
  | case4 depth t d ds hfull hd ih =>
    rw [Nat.not_lt] at hfull
    exact ih (by simpa using hfull)
  | case5 depth t d ds hfull domain hd counted =>
    rintro _ ⟨⟩
    simpa [counted] using hfull
  | case6 depth t d ds hfull domain hd counted hcounted hdepth ih => exact ih (by omega)
  | case7 depth t d ds hfull domain hd counted hcounted hdepth ihIncluded ihRest =>
    intro t' h
    obtain ⟨included, -, h⟩ := Lookup.exists_of_outcome_bind h
    obtain ⟨behind, hbehind, h⟩ := Lookup.exists_of_outcome_bind h
    exact ihRest behind (ihIncluded included (by omega) behind hbehind) t' h

namespace Word

structure Tally where
  includes : UInt64 := 0
  addresses : UInt64 := 0
  deriving DecidableEq

namespace Tally

def total (t : Tally) : UInt64 := t.includes + t.addresses

def countAddress (t : Tally) : Tally := { t with addresses := t.addresses + 1 }

def countInclude (t : Tally) : Tally := { t with includes := t.includes + 1 }

/-- The numbers that the words stand for. -/
def toNat (t : Tally) : Spf.Tally := ⟨t.includes.toNat, t.addresses.toNat⟩

variable {t : Tally}

theorem toNat_total (h : t.toNat.total < UInt64.size) : t.total.toNat = t.toNat.total := by
  rw [total, UInt64.toNat_add]
  exact Nat.mod_eq_of_lt h

theorem toNat_countAddress (h : t.toNat.total + 1 < UInt64.size) :
    t.countAddress.toNat = t.toNat.countAddress := by
  have hword : t.addresses.toNat + 1 < UInt64.size := by
    simp only [Spf.Tally.total, toNat] at h
    omega
  have hsum : (t.addresses + 1).toNat = t.addresses.toNat + 1 := Nat.mod_eq_of_lt hword
  rw [toNat, countAddress, hsum]
  rfl

theorem toNat_countInclude (h : t.toNat.total + 1 < UInt64.size) :
    t.countInclude.toNat = t.toNat.countInclude := by
  have hword : t.includes.toNat + 1 < UInt64.size := by
    simp only [Spf.Tally.total, toNat] at h
    omega
  have hsum : (t.includes + 1).toNat = t.includes.toNat + 1 := Nat.mod_eq_of_lt hword
  rw [toNat, countInclude, hsum]
  rfl

end Tally

/-- An include that does not lie as deep as the limit allows is one below another word. -/
theorem toNat_deeper {limit depth : UInt64} (h : ¬ limit ≤ depth) :
    (depth + 1).toNat = depth.toNat + 1 ∧ depth.toNat + 1 ≤ limit.toNat := by
  rw [UInt64.not_le, UInt64.lt_iff_toNat_lt] at h
  exact ⟨Nat.mod_eq_of_lt (Nat.lt_of_le_of_lt h limit.toNat_lt_size), h⟩

/-- The walk with its counters, its depth and its limit in words. -/
def walk (r : Resolver) (limit depth : UInt64) (t : Tally) : List Directive → Lookup Tally
  | [] => pure t
  | d :: ds =>
    if limit < t.total then pure t
    else match d.counted? with
      | none => walk r limit depth t ds
      | some .address => walk r limit depth t.countAddress ds
      | some (.includes domain) =>
        let t := t.countInclude
        if limit < t.total then pure t
        else if hdepth : limit ≤ depth then walk r limit depth t ds
        else do
          let included ← published r domain
          let t ← walk r limit (depth + 1) t (directivesOf included)
          walk r limit depth t ds
termination_by ds => (limit.toNat - depth.toNat, ds.length)
decreasing_by
  any_goals decreasing_tactic
  have hdeeper := toNat_deeper hdepth
  exact Prod.Lex.left _ _ (by omega)

structure Report where
  tally : Tally
  withinLimit : Bool
  deriving DecidableEq

namespace Report

def total (report : Report) : UInt64 := report.tally.total

def ofTally (limit : UInt64) (t : Tally) : Report := ⟨t, decide (t.total ≤ limit)⟩

def toNat (report : Report) : Spf.Report := ⟨report.tally.toNat, report.withinLimit⟩

end Report

def budget (r : Resolver) (domain : String) (limit : UInt64) : Lookup (Option Report) := do
  match ← published r domain with
  | none => pure none
  | some record =>
    (fun t => some (Report.ofTally limit t)) <$> walk r limit 0 {} record.directives

def staysWithin (r : Resolver) (domain : String) (limit : UInt64) : Lookup Bool :=
  (fun report => report.any Report.withinLimit) <$> budget r domain limit

variable {limit : UInt64} {t : Tally} {domain : String} {report : Report}

/-- A report is made of what a walk has counted. -/
theorem exists_walk_of_budget (h : (budget r domain limit).outcome = .ok (some report)) :
    ∃ ds t, (walk r limit 0 {} ds).outcome = .ok t ∧ report = Report.ofTally limit t := by
  obtain ⟨found, -, h⟩ := Lookup.exists_of_outcome_bind h
  cases found with
  | none => cases h
  | some record =>
    rw [Lookup.outcome_map] at h
    cases hwalk : (walk r limit 0 {} record.directives).outcome with
    | error e => rw [hwalk] at h; cases h
    | ok t =>
      rw [hwalk] at h
      exact ⟨record.directives, t, hwalk, (Option.some.inj (Except.ok.inj h)).symm⟩

theorem toNat_total_le {depth : UInt64} {depth' : Nat} {t' : Tally} {ds : List Directive}
    (ht : t.toNat.total ≤ limit.toNat + 1)
    (hwalk : Tally.toNat <$> walk r limit depth t ds = Spf.walk r limit.toNat depth' t.toNat ds)
    (h : (walk r limit depth t ds).outcome = .ok t') : t'.toNat.total ≤ limit.toNat + 1 := by
  have hnumbers : (Spf.walk r limit.toNat depth' t.toNat ds).outcome = .ok t'.toNat := by
    rw [← hwalk, Lookup.outcome_map, h]
    rfl
  exact total_le_of_walk ht t'.toNat hnumbers

section
variable (hlimit : limit.toNat + 1 < UInt64.size)
include hlimit

theorem lt_total_iff (ht : t.toNat.total ≤ limit.toNat + 1) :
    limit < t.total ↔ limit.toNat < t.toNat.total := by
  rw [UInt64.lt_iff_toNat_lt, Tally.toNat_total (Nat.lt_of_le_of_lt ht hlimit)]

/-- One more address does not wrap around as long as the limit is not passed. -/
theorem toNat_countAddress_of_le (ht : t.toNat.total ≤ limit.toNat) :
    t.countAddress.toNat = t.toNat.countAddress ∧ t.countAddress.toNat.total ≤ limit.toNat + 1 := by
  have hcount : t.countAddress.toNat = t.toNat.countAddress := Tally.toNat_countAddress (by omega)
  exact ⟨hcount, by rw [hcount, Spf.Tally.total_countAddress]; omega⟩

theorem toNat_countInclude_of_le (ht : t.toNat.total ≤ limit.toNat) :
    t.countInclude.toNat = t.toNat.countInclude ∧ t.countInclude.toNat.total ≤ limit.toNat + 1 := by
  have hcount : t.countInclude.toNat = t.toNat.countInclude := Tally.toNat_countInclude (by omega)
  exact ⟨hcount, by rw [hcount, Spf.Tally.total_countInclude]; omega⟩

/-- The invariant is that what is counted so far is at most one above the limit. -/
theorem toNat_walk (depth : UInt64) (ds : List Directive) (ht : t.toNat.total ≤ limit.toNat + 1) :
    Tally.toNat <$> walk r limit depth t ds = Spf.walk r limit.toNat depth.toNat t.toNat ds := by
  fun_induction walk r limit depth t ds with
  | case1 depth t =>
    rw [walk_nil]
    rfl
  | case2 depth t d ds hfull =>
    rw [lt_total_iff hlimit ht] at hfull
    rw [walk_of_full hfull]
    rfl
  | case3 depth t d ds hfull hd ih =>
    rw [lt_total_iff hlimit ht] at hfull
    rw [walk_cons_of_none hfull hd]
    exact ih ht
  | case4 depth t d ds hfull hd ih =>
    rw [lt_total_iff hlimit ht] at hfull
    obtain ⟨hcount, hle⟩ := toNat_countAddress_of_le hlimit (Nat.not_lt.1 hfull)
    rw [walk_address hfull hd, ih hle, hcount]
  | case5 depth t d ds hfull domain hd counted hcounted =>
    rw [lt_total_iff hlimit ht] at hfull
    obtain ⟨hcount, hle⟩ := toNat_countInclude_of_le hlimit (Nat.not_lt.1 hfull)
    rw [lt_total_iff hlimit hle, hcount] at hcounted
    rw [walk_includes_of_full hfull hd hcounted, ← hcount]
    rfl
  | case6 depth t d ds hfull domain hd counted hcounted hdepth ih =>
    rw [lt_total_iff hlimit ht] at hfull
    obtain ⟨hcount, hle⟩ := toNat_countInclude_of_le hlimit (Nat.not_lt.1 hfull)
    rw [lt_total_iff hlimit hle, hcount] at hcounted
    rw [walk_includes_of_deep hfull hd hcounted (UInt64.le_iff_toNat_le.1 hdepth), ← hcount]
    exact ih hle
  | case7 depth t d ds hfull domain hd counted hcounted hdepth ihIncluded ihRest =>
    rw [lt_total_iff hlimit ht] at hfull
    obtain ⟨hcount, hle⟩ := toNat_countInclude_of_le hlimit (Nat.not_lt.1 hfull)
    rw [lt_total_iff hlimit hle, hcount] at hcounted
    rw [walk_includes hfull hd hcounted (mt UInt64.le_iff_toNat_le.2 hdepth), ← hcount, map_bind]
    refine congrArg _ (funext fun included => ?_)
    have hincluded := ihIncluded included hle
    rw [(toNat_deeper hdepth).1] at hincluded
    rw [← hincluded, map_bind, bind_map_left]
    -- the rest is counted from where the included record ends, which is no more than one above the limit
    refine Lookup.bind_congr_of_ok fun behind hbehind => ihRest behind ?_
    exact toNat_total_le hle hincluded hbehind

/-- From the start of a walk on, the words are the numbers. -/
theorem toNat_walk_start (r : Resolver) (ds : List Directive) :
    Tally.toNat <$> walk r limit 0 {} ds = Spf.walk r limit.toNat 0 {} ds ∧
      ∀ t, (walk r limit 0 {} ds).outcome = .ok t → t.toNat.total ≤ limit.toNat + 1 := by
  have hstart : (Tally.toNat {}).total ≤ limit.toNat + 1 := Nat.zero_le _
  have hwalk := toNat_walk (r := r) hlimit 0 ds hstart
  exact ⟨hwalk, fun t ht => toNat_total_le hstart hwalk ht⟩

theorem toNat_ofTally (ht : t.toNat.total ≤ limit.toNat + 1) :
    (Report.ofTally limit t).toNat = Spf.Report.ofTally limit.toNat t.toNat := by
  rw [Report.ofTally, Report.toNat, Spf.Report.ofTally]
  simp only [UInt64.le_iff_toNat_le, Tally.toNat_total (Nat.lt_of_le_of_lt ht hlimit)]

/-- The budget in words is the budget in numbers, unless the limit is the greatest word. -/
theorem toNat_budget (r : Resolver) (domain : String) :
    Option.map Report.toNat <$> budget r domain limit = Spf.budget r domain limit.toNat := by
  rw [budget, Spf.budget, map_bind]
  refine congrArg _ (funext fun found => ?_)
  cases found with
  | none => rfl
  | some record =>
    obtain ⟨hwalk, hle⟩ := toNat_walk_start hlimit r record.directives
    dsimp only
    rw [← hwalk, Functor.map_map, Functor.map_map]
    exact Lookup.map_congr_of_ok fun t ht => congrArg some (toNat_ofTally hlimit (hle t ht))

/-- The total that a report adds up is the number of the terms. -/
theorem toNat_total_of_budget (h : (budget r domain limit).outcome = .ok (some report)) :
    report.total.toNat = report.toNat.total := by
  obtain ⟨ds, t, ht, rfl⟩ := exists_walk_of_budget h
  have hle := (toNat_walk_start hlimit r ds).2 t ht
  exact Tally.toNat_total (Nat.lt_of_le_of_lt hle hlimit)

theorem staysWithin_eq (r : Resolver) (domain : String) :
    staysWithin r domain limit = Spf.staysWithin r domain limit.toNat := by
  rw [staysWithin, Spf.staysWithin, ← toNat_budget hlimit, Functor.map_map]
  refine congrArg (· <$> _) (funext fun report => ?_)
  cases report <;> rfl

end

/-- No sum of words is above the greatest word, so that whatever a record holds is within that limit. -/
theorem withinLimit_of_greatest
    (h : (budget r domain 18446744073709551615).outcome = .ok (some report)) :
    report.withinLimit = true := by
  obtain ⟨ds, t, -, rfl⟩ := exists_walk_of_budget h
  exact decide_eq_true (UInt64.le_iff_toNat_le.2 (Nat.le_of_lt_succ t.total.toNat_lt_size))

end Word
end SenderAuth.Spf
