import SenderAuth.Dmarc.Record
import SenderAuth.Dns.Lookup
import SenderAuth.DomainName
import SenderAuth.SetupState

/-!
The DMARC record that a domain publishes.
-/
namespace SenderAuth.Dmarc
open Dns

/-- Reads the first TXT string at the DMARC name of a domain. -/
def published (r : Resolver) (domain : String) : Lookup (Option Record) :=
  (fun answer => answer.records.head?.map Record.parse) <$> resolveTxt r (DomainName.dmarc domain)

@[simp] theorem asked_published (r : Resolver) (domain : String) :
    (published r domain).asked = [DomainName.dmarc domain] := by
  simp [published]

def Record.state (record : Record) : SetupState := if record.isEmpty then .invalid else .setup

def verdict (r : Resolver) (domain : String) : Lookup SetupState :=
  (fun record => record.elim .notSetup Record.state) <$> published r domain

@[simp] theorem asked_verdict (r : Resolver) (domain : String) :
    (verdict r domain).asked = [DomainName.dmarc domain] := by
  simp [verdict]

end SenderAuth.Dmarc
