import SenderAuth.Dns.Zone

/-!
What a resolver in memory keeps: its zone, a log of the names that it was asked for, and how many questions
that were. A question reads the zone and leaves it as it is.
-/
namespace SenderAuth.Dns
open Text

structure Store where
  zone : Zone := {}
  /-- the names asked for, in lower case and in order -/
  log : List String := []
  count : Nat := 0
  deriving DecidableEq

namespace Store

/-- The answer to a question. It is counted and logged before it is answered, so failures are as well. -/
def ask (s : Store) (name : String) : Except Failure (List String) × Store :=
  let s := { s with count := s.count + 1 }
  let s := { s with log := s.log ++ [lower name] }
  (s.zone.answer name, s)

/-- The store after questions for names, which are in lower case here. -/
def record (s : Store) (names : List String) : Store :=
  { s with log := s.log ++ names, count := s.count + names.length }

@[simp] theorem zone_record (s : Store) (names : List String) : (s.record names).zone = s.zone := rfl

@[simp] theorem log_record (s : Store) (names : List String) :
    (s.record names).log = s.log ++ names := rfl

@[simp] theorem count_record (s : Store) (names : List String) :
    (s.record names).count = s.count + names.length := rfl

@[simp] theorem record_nil (s : Store) : s.record [] = s := by
  simp [record]

theorem record_record (s : Store) (xs ys : List String) :
    (s.record xs).record ys = s.record (xs ++ ys) := by
  simp [record, Nat.add_assoc]

theorem ask_eq (s : Store) (name : String) :
    s.ask name = (s.zone.answer name, s.record [lower name]) := rfl

end Store
end SenderAuth.Dns
