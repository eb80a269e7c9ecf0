/-!
The verdict of a check: nothing is published, what is published is broken, or it is set up.
-/
namespace SenderAuth

inductive SetupState
  | notSetup | invalid | setup
  deriving DecidableEq, Repr

namespace SetupState

def name : SetupState → String
  | notSetup => "not_setup"
  | invalid => "invalid"
  | setup => "setup"

def ofName? (s : String) : Option SetupState :=
  if s = "not_setup" then some notSetup
  else if s = "invalid" then some invalid
  else if s = "setup" then some setup
  else none

def isSetup (s : SetupState) : Bool := s = setup

def unknownMessage (s : String) : String := "unknown setup state: " ++ s

theorem ofName?_eq_some_iff {s : String} {v : SetupState} : ofName? s = some v ↔ s = v.name := by
  constructor
  · intro h
    unfold ofName? at h
    split at h
    · cases h; assumption
    · split at h
      · cases h; assumption
      · split at h
        · cases h; assumption
        · cases h
  · rintro rfl
    cases v <;> decide

end SetupState
end SenderAuth
