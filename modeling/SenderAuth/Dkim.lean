import SenderAuth.Dns.Lookup
import SenderAuth.DomainName
import SenderAuth.SetupState

/-!
Whether a domain publishes a DKIM key. A key is not looked into: any TXT string that is not blank
counts as one.
-/
namespace SenderAuth.Dkim
open Dns Text

def hasKey (records : List String) : Bool := records.any fun s => trim s.toList ≠ []

/-- The verdict for one selector; it is never `invalid`. -/
def verdict (r : Resolver) (domain selector : String) : Lookup SetupState :=
  (fun answer => if hasKey answer.records then .setup else .notSetup) <$>
    resolveTxt r (DomainName.dkim selector domain)

@[simp] theorem asked_verdict (r : Resolver) (domain selector : String) :
    (verdict r domain selector).asked = [DomainName.dkim selector domain] := by
  simp [verdict]

/-- Tries selectors in order up to the first that has a key. -/
def verdictOfAny (r : Resolver) (domain : String) : List String → Lookup SetupState
  | [] => pure .notSetup
  | selector :: selectors => do
    let state ← verdict r domain selector
    if state.isSetup then pure .setup else verdictOfAny r domain selectors

@[simp] theorem verdictOfAny_nil (r : Resolver) (domain : String) :
    verdictOfAny r domain [] = pure .notSetup := rfl

theorem verdictOfAny_cons (r : Resolver) (domain selector : String) (selectors : List String) :
    verdictOfAny r domain (selector :: selectors) =
      verdict r domain selector >>= fun state =>
        if state.isSetup then pure .setup else verdictOfAny r domain selectors := rfl

end SenderAuth.Dkim
