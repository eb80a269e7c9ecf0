import SenderAuth.Dns.Lookup
import SenderAuth.Text.Casing

/-!
A zone held in memory. Names are kept in lower case; what was stored last under a name counts, and a
failure stored under it hides its records.
-/
namespace SenderAuth.Dns
open Text

structure Zone where
  /-- records by name, the newest first -/
  records : List (String × List String) := []
  /-- failures by name, the newest first -/
  failures : List (String × Failure) := []
  deriving DecidableEq

namespace Zone

def empty : Zone := {}

def addTxt (z : Zone) (name : String) (records : List String) : Zone :=
  { z with records := (lower name, records) :: z.records }

def addFailure (z : Zone) (name : String) (e : Failure) : Zone :=
  { z with failures := (lower name, e) :: z.failures }

def setNxDomain (z : Zone) (name : String) : Zone := z.addFailure name .nxDomain

def failure? (z : Zone) (name : String) : Option Failure := z.failures.lookup (lower name)

def records? (z : Zone) (name : String) : Option (List String) := z.records.lookup (lower name)

@[simp] theorem failure?_empty (name : String) : empty.failure? name = none := rfl

@[simp] theorem records?_empty (name : String) : empty.records? name = none := rfl

@[simp] theorem failure?_addFailure (z : Zone) (key name : String) (e : Failure) :
    (z.addFailure key e).failure? name =
      if lower name = lower key then some e else z.failure? name := by
  by_cases h : lower name = lower key <;>
    simp [failure?, addFailure, List.lookup_cons, h, beq_eq_false_iff_ne.2]

@[simp] theorem records?_addFailure (z : Zone) (key name : String) (e : Failure) :
    (z.addFailure key e).records? name = z.records? name := rfl

@[simp] theorem records?_addTxt (z : Zone) (key name : String) (records : List String) :
    (z.addTxt key records).records? name =
      if lower name = lower key then some records else z.records? name := by
  by_cases h : lower name = lower key <;>
    simp [records?, addTxt, List.lookup_cons, h, beq_eq_false_iff_ne.2]

@[simp] theorem failure?_addTxt (z : Zone) (key name : String) (records : List String) :
    (z.addTxt key records).failure? name = z.failure? name := rfl

/-- The zone as a resolver. A name at which nothing was stored has no records. -/
def answer (z : Zone) : Resolver := fun name =>
  match z.failure? name with
  | some e => .error e
  | none =>
    match z.records? name with
    | some records => .ok records
    | none => .error .noRecords

@[simp] theorem answer_empty (name : String) : empty.answer name = .error .noRecords := rfl

/-- A zone knows a name by its lower case only. -/
theorem answer_congr (z : Zone) {a b : String} (h : lower a = lower b) : z.answer a = z.answer b := by
  simp only [answer, failure?, records?, h]

theorem transientFree_answer {z : Zone} (h : ∀ entry ∈ z.failures, entry.2.isAbsence = true) :
    TransientFree z.answer := by
  intro name e hanswer
  cases hfailure : z.failure? name with
  | some e' =>
    obtain ⟨before, after, hentries, -⟩ := List.lookup_eq_some_iff.mp hfailure
    obtain rfl : e' = e := by simpa [answer, hfailure] using hanswer
    exact h (lower name, e') (by simp [hentries])
  | none =>
    cases hrecords : z.records? name with
    | some records => simp [answer, hfailure, hrecords] at hanswer
    | none =>
      obtain rfl : .noRecords = e := by simpa [answer, hfailure, hrecords] using hanswer
      rfl

end Zone
end SenderAuth.Dns
