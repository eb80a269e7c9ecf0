import SenderAuth.Spf.Published

/-!
How many terms that cost a DNS question an SPF record uses, along the records that it includes. Only
`a` and `include` are counted, and counting stops with the first term above the limit.
-/
namespace SenderAuth.Spf
open Dns

def defaultLimit : Nat := 10

/-- A term that counts. -/
inductive Counted
  | address
  | includes (domain : String)
  deriving DecidableEq, Repr

def Directive.counted? (d : Directive) : Option Counted :=
  match d.mechanism with
  | .a _ => some .address
  | .includes domain => some (.includes domain)
  | _ => none

def countedTerms (ds : List Directive) : List Counted := ds.filterMap Directive.counted?

/-- The directives behind an include; where there is no record there are none. -/
def directivesOf (record : Option Record) : List Directive := record.elim [] Record.directives

structure Tally where
  includes : Nat := 0
  addresses : Nat := 0
  deriving DecidableEq, Repr

namespace Tally

def total (t : Tally) : Nat := t.includes + t.addresses

def countAddress (t : Tally) : Tally := { t with addresses := t.addresses + 1 }

def countInclude (t : Tally) : Tally := { t with includes := t.includes + 1 }

@[simp] theorem total_countAddress (t : Tally) : t.countAddress.total = t.total + 1 := by
  simp only [total, countAddress]; omega

@[simp] theorem total_countInclude (t : Tally) : t.countInclude.total = t.total + 1 := by
  simp only [total, countInclude]; omega

end Tally

/-- Counts the terms of directives that lie `depth` includes below the root, those of an included record
right behind its include. Above the limit nothing more is counted and no name is asked for, and an
include that lies as deep as the limit allows is not followed. -/
def walk (r : Resolver) (limit depth : Nat) (t : Tally) : List Directive → Lookup Tally
  | [] => pure t
  | d :: ds =>
    if limit < t.total then pure t
    else match d.counted? with
      | none => walk r limit depth t ds
      | some .address => walk r limit depth t.countAddress ds
      | some (.includes domain) =>
        let t := t.countInclude
        if limit < t.total then pure t
        else if _ : limit ≤ depth then walk r limit depth t ds
        else do
          let included ← published r domain
          let t ← walk r limit (depth + 1) t (directivesOf included)
          walk r limit depth t ds
termination_by ds => (limit - depth, ds.length)

section
variable {r : Resolver} {limit depth : Nat} {t : Tally} {d : Directive} {ds : List Directive}
  {domain : String}

@[simp] theorem walk_nil : walk r limit depth t [] = pure t := by rw [walk]

theorem walk_of_full (h : limit < t.total) : walk r limit depth t ds = pure t := by
  cases ds with
  | nil => exact walk_nil
  | cons d ds => rw [walk, if_pos h]

theorem walk_cons_of_none (ht : ¬ limit < t.total) (hd : d.counted? = none) :
    walk r limit depth t (d :: ds) = walk r limit depth t ds := by
  rw [walk, if_neg ht, hd]

theorem walk_address (ht : ¬ limit < t.total) (hd : d.counted? = some .address) :
    walk r limit depth t (d :: ds) = walk r limit depth t.countAddress ds := by
  rw [walk, if_neg ht, hd]

theorem walk_includes_of_full (ht : ¬ limit < t.total) (hd : d.counted? = some (.includes domain))
    (hfull : limit < t.countInclude.total) :
    walk r limit depth t (d :: ds) = pure t.countInclude := by
  rw [walk, if_neg ht, hd]
  exact if_pos hfull

theorem walk_includes_of_deep (ht : ¬ limit < t.total) (hd : d.counted? = some (.includes domain))
    (hfull : ¬ limit < t.countInclude.total) (hdepth : limit ≤ depth) :
    walk r limit depth t (d :: ds) = walk r limit depth t.countInclude ds := by
  rw [walk, if_neg ht, hd]
  dsimp only
  rw [if_neg hfull, dif_pos hdepth]

theorem walk_includes (ht : ¬ limit < t.total) (hd : d.counted? = some (.includes domain))
    (hfull : ¬ limit < t.countInclude.total) (hdepth : ¬ limit ≤ depth) :
    walk r limit depth t (d :: ds) = (do
      let included ← published r domain
      let t ← walk r limit (depth + 1) t.countInclude (directivesOf included)
      walk r limit depth t ds) := by
  rw [walk, if_neg ht, hd]
  dsimp only
  rw [if_neg hfull, dif_neg hdepth]

end

structure Report where
  tally : Tally
  withinLimit : Bool
  deriving DecidableEq, Repr

def Report.total (report : Report) : Nat := report.tally.total

def Report.ofTally (limit : Nat) (t : Tally) : Report := ⟨t, decide (t.total ≤ limit)⟩

/-- The budget of a domain, if it has an SPF record. One term above the limit is still counted. -/
def budget (r : Resolver) (domain : String) (limit : Nat) : Lookup (Option Report) := do
  match ← published r domain with
  | none => pure none
  | some record =>
    (fun t => some (Report.ofTally limit t)) <$> walk r limit 0 {} record.directives

theorem budget_of_error {r : Resolver} {domain : String} {e : Failure}
    (h : (published r domain).outcome = .error e) (limit : Nat) :
    budget r domain limit = ⟨[domain], .error e⟩ := by
  rw [budget, Lookup.bind_of_error h, asked_published]

theorem budget_of_none {r : Resolver} {domain : String}
    (h : (published r domain).outcome = .ok none) (limit : Nat) :
    budget r domain limit = ⟨[domain], .ok none⟩ := by
  rw [budget, Lookup.bind_of_ok h]
  simp

theorem budget_of_some {r : Resolver} {domain : String} {record : Record}
    (h : (published r domain).outcome = .ok (some record)) (limit : Nat) :
    budget r domain limit =
      ⟨domain :: (walk r limit 0 {} record.directives).asked,
        (walk r limit 0 {} record.directives).outcome.map fun t =>
          some (Report.ofTally limit t)⟩ := by
  rw [budget, Lookup.bind_of_ok h]
  simp

/-- Without a record there is no report, and the limit plays no part. -/
theorem exists_record_or_budget_eq (r : Resolver) (domain : String) :
    (∃ record, (published r domain).outcome = .ok (some record)) ∨
      ∃ outcome, (∀ report, outcome ≠ .ok (some report)) ∧
        ∀ limit, budget r domain limit = ⟨[domain], outcome⟩ := by
  cases h : (published r domain).outcome with
  | error e => exact .inr ⟨.error e, by simp, budget_of_error h⟩
  | ok found =>
    cases found with
    | none => exact .inr ⟨.ok none, by simp, budget_of_none h⟩
    | some record => exact .inl ⟨record, rfl⟩

def staysWithin (r : Resolver) (domain : String) (limit : Nat) : Lookup Bool :=
  (fun report => report.any Report.withinLimit) <$> budget r domain limit

theorem staysWithin_eq_true_iff {r : Resolver} {domain : String} {limit : Nat} :
    (staysWithin r domain limit).outcome = .ok true ↔ ∃ report,
      (budget r domain limit).outcome = .ok (some report) ∧ report.withinLimit = true := by
  rw [staysWithin, Lookup.outcome_map]
  cases (budget r domain limit).outcome with
  | error e => simp [Except.map]
  | ok report => cases report <;> simp [Except.map]

end SenderAuth.Spf
