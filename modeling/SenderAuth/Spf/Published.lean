import SenderAuth.Dns.Lookup
import SenderAuth.DomainName
import SenderAuth.SetupState
import SenderAuth.Spf.Record

/-!
The SPF record that a domain publishes, and what is judged by it.
-/
namespace SenderAuth.Spf
open Dns

/-- Asks for the TXT strings of a domain, under the name as it is given, and reads the SPF record
among them. -/
def published (r : Resolver) (domain : String) : Lookup (Option Record) :=
  (fun answer => (select answer.records).map Record.parse) <$> resolveTxt r domain

@[simp] theorem asked_published (r : Resolver) (domain : String) :
    (published r domain).asked = [domain] := by
  simp [published]

theorem outcome_published (r : Resolver) (domain : String) :
    (published r domain).outcome =
      (TxtLookup.ofAnswer (r domain)).map fun answer =>
        (select answer.records).map Record.parse := by
  simp [published]

theorem outcome_published_of_isSpf {r : Resolver} {domain record : String} (hspf : isSpf record = true)
    (h : r domain = .ok [record]) :
    (published r domain).outcome = .ok (some (Record.parse record)) := by
  have hselect : select [record] = some record := List.find?_cons_of_pos hspf
  rw [outcome_published, h]
  simp only [TxtLookup.ofAnswer, Except.map, TxtLookup.records, hselect, Option.map_some]

/-- The warnings that make a record unfit. -/
structure Validations where
  allIsLast : Bool := false
  allOrRedirect : Bool := false
  deriving DecidableEq, Repr

def Validations.strict : Validations := ⟨true, true⟩

/-- A record fails on an error, and on a warning that the validations ask about. -/
def Record.state (v : Validations) (record : Record) : SetupState :=
  if record.valid = false then .invalid
  else if v.allIsLast ∧ .mechanismAfterAll ∈ record.messages then .invalid
  else if v.allOrRedirect ∧ .noAllOrRedirect ∈ record.messages then .invalid
  else .setup

def verdict (r : Resolver) (domain : String) (v : Validations) : Lookup SetupState :=
  (fun record => record.elim .notSetup (Record.state v)) <$> published r domain

@[simp] theorem asked_verdict (r : Resolver) (domain : String) (v : Validations) :
    (verdict r domain v).asked = [domain] := by
  simp [verdict]

/-- Whether a directive passes all that the sender's own record passes. -/
def Directive.passes (sender : String) (d : Directive) : Bool :=
  match d.qualifier, d.mechanism with
  | .pass, .includes domain => decide (DomainName.Same domain sender)
  | _, _ => false

/-- Whether a usable record includes the sender itself; the records it includes are not searched. -/
def Record.hasSender (sender : String) (record : Record) : Bool :=
  record.valid && record.directives.any (Directive.passes sender)

def hasSender (r : Resolver) (domain sender : String) : Lookup Bool :=
  (fun record => record.any (Record.hasSender sender)) <$> published r domain

@[simp] theorem asked_hasSender (r : Resolver) (domain sender : String) :
    (hasSender r domain sender).asked = [domain] := by
  simp [hasSender]

end SenderAuth.Spf
