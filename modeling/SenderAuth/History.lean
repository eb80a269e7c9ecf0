import SenderAuth.Session

/-!
What the steps of a session so far amount to: the zone that those of them make which change it, and with it
the answer to each name, the limit and the validations that were configured last, and the names that were
asked for.
-/
namespace SenderAuth
open Dns Text

namespace Step

def changesZone : Step → Bool
  | addTxt .. | addFailure .. | setNxDomain _ => true
  | configure .. | check _ | countQueries => false

def changes : Step → Bool
  | addTxt .. | addFailure .. | setNxDomain _ | configure .. => true
  | check _ | countQueries => false

def limit? : Step → Option Nat
  | configure limit _ => limit
  | addTxt .. | addFailure .. | setNxDomain _ | check _ | countQueries => none

def validations? : Step → Option Spf.Validations
  | configure _ validations => validations
  | addTxt .. | addFailure .. | setNxDomain _ | check _ | countQueries => none

def failureAt? (name : String) : Step → Option Failure
  | addFailure key e => if lower name = lower key then some e else none
  | setNxDomain key => if lower name = lower key then some .nxDomain else none
  | addTxt .. | configure .. | check _ | countQueries => none

def recordsAt? (name : String) : Step → Option (List String)
  | addTxt key records => if lower name = lower key then some records else none
  | addFailure .. | setNxDomain _ | configure .. | check _ | countQueries => none

/-- The name that a step asks for by itself. -/
def query? : Step → Option String
  | check (.query name) => some name
  | addTxt .. | addFailure .. | setNxDomain _ | configure .. | check _ | countQueries => none

end Step

/-- The last value that a step sets, and this one where no step does. -/
def lastSet {α : Type} (value? : Step → Option α) (initial : α) (steps : List Step) : α :=
  (steps.filterMap value?).getLast?.getD initial

/-- The zone that the changes of the zone make of an empty one. -/
def zoneOf (steps : List Step) : Zone :=
  (steps.filter Step.changesZone).foldl Step.changeZone Zone.empty

/-- The answer to a name. A failure that was ever stored under it counts before all records, and of either
what was stored last. -/
def answerOf (steps : List Step) (name : String) : Except Failure (List String) :=
  match (steps.filterMap (Step.failureAt? name)).getLast? with
  | some e => .error e
  | none =>
    match (steps.filterMap (Step.recordsAt? name)).getLast? with
    | some records => .ok records
    | none => .error .noRecords

def limitOf : List Step → Nat := lastSet Step.limit? Spf.defaultLimit

def validationsOf : List Step → Spf.Validations := lastSet Step.validations? {}

theorem lastSet_cons {α : Type} (value? : Step → Option α) (initial : α) (step : Step)
    (steps : List Step) :
    lastSet value? initial (step :: steps) = lastSet value? ((value? step).getD initial) steps := by
  rw [lastSet, lastSet]
  cases h : value? step with
  | none => rw [List.filterMap_cons_none h, Option.getD_none]
  | some a => rw [List.filterMap_cons_some h, List.getLast?_cons, Option.getD_some, Option.getD_some]

/-- Steps that set nothing have no part in it. -/
theorem lastSet_filter {α : Type} {value? : Step → Option α} {p : Step → Bool}
    (h : ∀ step, p step = false → value? step = none) (initial : α) (steps : List Step) :
    lastSet value? initial (steps.filter p) = lastSet value? initial steps := by
  have hvalue (step : Step) : (if p step = true then value? step else none) = value? step := by
    cases hp : p step with
    | true => rfl
    | false => exact (h step hp).symm
  rw [lastSet, lastSet, List.filterMap_filter]
  simp only [hvalue]

theorem foldl_changeZone (z : Zone) (steps : List Step) :
    steps.foldl Step.changeZone z = (steps.filter Step.changesZone).foldl Step.changeZone z := by
  induction steps generalizing z with
  | nil => rfl
  | cons step steps ih => cases step <;> exact ih _

theorem Step.failure?_changeZone (step : Step) (z : Zone) (name : String) :
    (step.changeZone z).failure? name = (step.failureAt? name).or (z.failure? name) := by
  cases step with
  | addFailure key e =>
    by_cases h : lower name = lower key <;> simp [changeZone, failureAt?, h]
  | setNxDomain key =>
    by_cases h : lower name = lower key <;> simp [changeZone, failureAt?, Zone.setNxDomain, h]
  | addTxt key records => rfl
  | configure limit validations => rfl
  | check k => rfl
  | countQueries => rfl

theorem Step.records?_changeZone (step : Step) (z : Zone) (name : String) :
    (step.changeZone z).records? name = (step.recordsAt? name).or (z.records? name) := by
  cases step with
  | addTxt key records =>
    by_cases h : lower name = lower key <;> simp [changeZone, recordsAt?, h]
  | addFailure key e => rfl
  | setNxDomain key => rfl
  | configure limit validations => rfl
  | check k => rfl
  | countQueries => rfl

/-- Where each step puts a value in front of what is there, or leaves it, the last value that is put is
there in the end. -/
theorem view_foldl_changeZone {α : Type} (view : Zone → Option α) {value? : Step → Option α}
    (h : ∀ (step : Step) (z : Zone), view (step.changeZone z) = (value? step).or (view z))
    (steps : List Step) (z : Zone) :
    view (steps.foldl Step.changeZone z) = (steps.filterMap value?).getLast?.or (view z) := by
  induction steps generalizing z with
  | nil => rfl
  | cons step steps ih =>
    rw [List.foldl_cons, ih, h]
    cases hvalue : value? step with
    | none => rw [List.filterMap_cons_none hvalue, Option.none_or]
    | some a =>
      rw [List.filterMap_cons_some hvalue, List.getLast?_cons]
      cases (steps.filterMap value?).getLast? <;> rfl

theorem answer_zoneOf (steps : List Step) (name : String) :
    (zoneOf steps).answer name = answerOf steps name := by
  have hfailure : (zoneOf steps).failure? name =
      (steps.filterMap (Step.failureAt? name)).getLast? := by
    rw [zoneOf, ← foldl_changeZone, view_foldl_changeZone (Zone.failure? · name)
      fun step z => step.failure?_changeZone z name]
    exact Option.or_none
  have hrecords : (zoneOf steps).records? name =
      (steps.filterMap (Step.recordsAt? name)).getLast? := by
    rw [zoneOf, ← foldl_changeZone, view_foldl_changeZone (Zone.records? · name)
      fun step z => step.records?_changeZone z name]
    exact Option.or_none
  rw [Zone.answer, hfailure, hrecords]
  rfl

theorem foldl_changeChecker (c : Checker) (steps : List Step) :
    steps.foldl Step.changeChecker c =
      ⟨lastSet Step.limit? c.lookupLimit steps, lastSet Step.validations? c.validations steps⟩ := by
  induction steps generalizing c with
  | nil => rfl
  | cons step steps ih =>
    rw [List.foldl_cons, ih, lastSet_cons, lastSet_cons]
    cases step <;> rfl

namespace Session

theorem zone_after_fresh (steps : List Step) :
    (after {} steps).store.zone = zoneOf steps := by
  rw [zone_after, foldl_changeZone]
  rfl

theorem checker_after_fresh (steps : List Step) :
    (after {} steps).checker = ⟨limitOf steps, validationsOf steps⟩ := by
  rw [checker_after, foldl_changeChecker]
  rfl

end Session

/-- Histories that are the same to a check: the zone is changed in the same way, and what the check takes
from the checker is the same. -/
structure SameTo (k : Check) (xs ys : List Step) : Prop where
  zone : xs.filter Step.changesZone = ys.filter Step.changesZone
  given : k.given (limitOf xs) (validationsOf xs) = k.given (limitOf ys) (validationsOf ys)

/-- Histories with the same changes are the same to all checks, whatever else was done in between. -/
theorem sameTo_of_changes {xs ys : List Step} (h : xs.filter Step.changes = ys.filter Step.changes)
    (k : Check) : SameTo k xs ys := by
  have hzone (steps : List Step) : steps.filter Step.changesZone =
      (steps.filter Step.changes).filter Step.changesZone := by
    rw [List.filter_filter]
    exact List.filter_congr fun step _ => by cases step <;> rfl
  have hlimit (steps : List Step) : limitOf (steps.filter Step.changes) = limitOf steps :=
    lastSet_filter (fun step hstep => by cases step <;> first | rfl | cases hstep) _ steps
  have hvalidations (steps : List Step) :
      validationsOf (steps.filter Step.changes) = validationsOf steps :=
    lastSet_filter (fun step hstep => by cases step <;> first | rfl | cases hstep) _ steps
  refine ⟨by rw [hzone xs, h, ← hzone], ?_⟩
  rw [← hlimit xs, ← hvalidations xs, h, hlimit, hvalidations]

end SenderAuth
