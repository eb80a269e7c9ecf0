import SenderAuth.Checker
import SenderAuth.Dns.Store

/-!
A session: a resolver in memory and a checker that asks it. Steps change the zone or the checker, or carry
out a check; only a check asks the resolver.
-/
namespace SenderAuth
open Dns

inductive Step
  | addTxt (name : String) (records : List String)
  | addFailure (name : String) (e : Failure)
  | setNxDomain (name : String)
  | configure (limit : Option Nat) (validations : Option Spf.Validations)
  | check (c : Check)
  | countQueries
  deriving DecidableEq

namespace Step

def changeZone (z : Zone) : Step → Zone
  | addTxt name records => z.addTxt name records
  | addFailure name e => z.addFailure name e
  | setNxDomain name => z.setNxDomain name
  | configure .. | check _ | countQueries => z

def changeChecker (c : Checker) : Step → Checker
  | configure limit validations => c.configure limit validations
  | addTxt .. | addFailure .. | setNxDomain _ | check _ | countQueries => c

end Step

/-- What a step shows: its reply, the names asked for during it, and how many were asked so far. -/
structure Observation where
  reply : Except Failure Reply
  asked : List String
  count : Nat

structure Session where
  store : Store := {}
  checker : Checker := {}
  deriving DecidableEq

namespace Session

/-- What a step does by asking the resolver. -/
def work (s : Session) : Step → Lookup Reply
  | .check c => s.checker.run s.store.zone.answer c
  | .countQueries => pure (.count s.store.count)
  | .addTxt .. | .addFailure .. | .setNxDomain _ | .configure .. => pure .done

def change (s : Session) (step : Step) : Session where
  store := { s.store with zone := step.changeZone s.store.zone }
  checker := step.changeChecker s.checker

def record (s : Session) (asked : List String) : Session := { s with store := s.store.record asked }

/-- Carries out a step: what it shows, and the session after it. -/
def perform (s : Session) (step : Step) : Observation × Session :=
  let done := s.work step
  let asked := done.asked.map Text.lower
  let after := (s.change step).record asked
  (⟨done.outcome, asked, after.store.count⟩, after)

@[simp] theorem zone_perform (s : Session) (step : Step) :
    (s.perform step).2.store.zone = step.changeZone s.store.zone := rfl

@[simp] theorem checker_perform (s : Session) (step : Step) :
    (s.perform step).2.checker = step.changeChecker s.checker := rfl

theorem log_perform (s : Session) (step : Step) :
    (s.perform step).2.store.log = s.store.log ++ (s.perform step).1.asked := rfl

/-- Questions are counted as often as they are logged. -/
theorem count_eq_perform {s : Session} (h : s.store.count = s.store.log.length) (step : Step) :
    (s.perform step).2.store.count = (s.perform step).2.store.log.length := by
  simp [perform, change, record, h]

def run (s : Session) : List Step → List Observation
  | [] => []
  | step :: steps =>
    let (shown, after) := s.perform step
    shown :: after.run steps

@[simp] theorem run_nil (s : Session) : s.run [] = [] := rfl

@[simp] theorem run_cons (s : Session) (step : Step) (steps : List Step) :
    s.run (step :: steps) = (s.perform step).1 :: (s.perform step).2.run steps := rfl

def after (s : Session) : List Step → Session
  | [] => s
  | step :: steps => (s.perform step).2.after steps

@[simp] theorem after_nil (s : Session) : s.after [] = s := rfl

@[simp] theorem after_cons (s : Session) (step : Step) (steps : List Step) :
    s.after (step :: steps) = (s.perform step).2.after steps := rfl

theorem after_concat (s : Session) (steps : List Step) (step : Step) :
    s.after (steps ++ [step]) = ((s.after steps).perform step).2 := by
  induction steps generalizing s with
  | nil => rfl
  | cons first steps ih => exact ih _

/-- What a step shows is decided by the session that the steps before it lead to. -/
theorem getElem?_run (s : Session) (steps : List Step) (i : Nat) :
    (s.run steps)[i]? = steps[i]?.map fun step => ((s.after (steps.take i)).perform step).1 := by
  induction steps generalizing s i with
  | nil => simp
  | cons step steps ih =>
    cases i with
    | zero => simp
    | succ i => simp [ih]

theorem zone_after (s : Session) (steps : List Step) :
    (s.after steps).store.zone = steps.foldl Step.changeZone s.store.zone := by
  induction steps generalizing s with
  | nil => rfl
  | cons step steps ih => simp [ih]

theorem checker_after (s : Session) (steps : List Step) :
    (s.after steps).checker = steps.foldl Step.changeChecker s.checker := by
  induction steps generalizing s with
  | nil => rfl
  | cons step steps ih => simp [ih]

theorem count_eq_after {s : Session} (h : s.store.count = s.store.log.length) (steps : List Step) :
    (s.after steps).store.count = (s.after steps).store.log.length := by
  induction steps generalizing s with
  | nil => exact h
  | cons step steps ih => exact ih (count_eq_perform h step)

end Session
end SenderAuth
