/-!
The ways in which a DNS question fails. Some of them say that there is nothing at the name, the others
that the answer could not be had this time.
-/
namespace SenderAuth.Dns

inductive Failure
  | nxDomain | noRecords | servFail | tempFail | timeout
  | other (text : String)
  deriving DecidableEq, Repr

namespace Failure

def message : Failure → String
  | nxDomain => "NXDOMAIN: domain does not exist"
  | noRecords => "no records of the requested type"
  | servFail => "SERVFAIL: server failure"
  | tempFail => "temporary DNS failure"
  | timeout => "timeout"
  | other text => "DNS error: " ++ text

/-- Failures that mean there is nothing at the name. -/
def isAbsence : Failure → Bool
  | nxDomain | noRecords | servFail => true
  | tempFail | timeout | other _ => false

/-- Failures that leave open what is at the name. -/
inductive Transient : Failure → Prop
  | tempFail : Transient tempFail
  | timeout : Transient timeout
  | other (text : String) : Transient (other text)

theorem transient_iff {e : Failure} : e.Transient ↔ e.isAbsence = false := by
  constructor
  · intro h
    cases h <;> rfl
  · intro h
    cases e with
    | nxDomain | noRecords | servFail => cases h
    | tempFail => exact .tempFail
    | timeout => exact .timeout
    | other text => exact .other text

theorem not_transient_iff {e : Failure} : ¬ e.Transient ↔ e.isAbsence = true := by
  rw [transient_iff, Bool.not_eq_false]

end Failure
end SenderAuth.Dns
