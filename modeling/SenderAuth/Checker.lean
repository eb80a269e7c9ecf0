import SenderAuth.Dkim
import SenderAuth.Dmarc.Published
import SenderAuth.Spf.Budget

/-!
The checks of a domain, as functions of a resolver and as methods of a checker that has a policy of its own.
-/
namespace SenderAuth
open Dns

/-- Whom a check is put to: a function, or a checker. -/
inductive Way
  | function
  | method
  deriving DecidableEq

/-- What can be asked about a name. It is put to a function with the limit or the validations that it
comes with, and to the checker where it comes with none. -/
inductive Check
  | query (name : String)
  | resolve (name : String)
  | spfRecord (domain : String)
  | spfVerdict (domain : String) (validations : Option Spf.Validations)
  | spfSender (domain sender : String) (way : Way := .function)
  | spfBudget (domain : String) (limit : Option Nat)
  | spfStaysWithin (domain : String) (limit : Option Nat)
  | dkimVerdict (domain selector : String) (way : Way := .function)
  | dkimVerdictOfAny (domain : String) (selectors : List String) (way : Way := .function)
  | dmarcRecord (domain : String)
  | dmarcVerdict (domain : String) (way : Way := .function)
  deriving DecidableEq

inductive Reply
  | done
  | count (n : Nat)
  | holds (b : Bool)
  | strings (records : List String)
  | txt (lookup : TxtLookup)
  | state (s : SetupState)
  | spfRecord (record : Option Spf.Record)
  | spfReport (report : Option Spf.Report)
  | dmarcRecord (record : Option Dmarc.Record)
  deriving DecidableEq

namespace Check

/-- The same question to the function that it belongs to, with this limit or these validations where it
comes with none. -/
def given (limit : Nat) (validations : Spf.Validations) : Check → Check
  | .spfVerdict domain own => .spfVerdict domain (some (own.getD validations))
  | .spfSender domain sender _ => .spfSender domain sender .function
  | .spfBudget domain own => .spfBudget domain (some (own.getD limit))
  | .spfStaysWithin domain own => .spfStaysWithin domain (some (own.getD limit))
  | .dkimVerdict domain selector _ => .dkimVerdict domain selector .function
  | .dkimVerdictOfAny domain selectors _ => .dkimVerdictOfAny domain selectors .function
  | .dmarcVerdict domain _ => .dmarcVerdict domain .function
  | check => check

/-- What the function that a check belongs to says, with this limit or these validations where the check
comes with none. -/
def function (limit : Nat) (validations : Spf.Validations) (r : Resolver) : Check → Lookup Reply
  | .query name => .strings <$> Dns.query r name
  | .resolve name => .txt <$> resolveTxt r name
  | .spfRecord domain => .spfRecord <$> Spf.published r domain
  | .spfVerdict domain own => .state <$> Spf.verdict r domain (own.getD validations)
  | .spfSender domain sender _ => .holds <$> Spf.hasSender r domain sender
  | .spfBudget domain own => .spfReport <$> Spf.budget r domain (own.getD limit)
  | .spfStaysWithin domain own => .holds <$> Spf.staysWithin r domain (own.getD limit)
  | .dkimVerdict domain selector _ => .state <$> Dkim.verdict r domain selector
  | .dkimVerdictOfAny domain selectors _ => .state <$> Dkim.verdictOfAny r domain selectors
  | .dmarcRecord domain => .dmarcRecord <$> Dmarc.published r domain
  | .dmarcVerdict domain _ => .state <$> Dmarc.verdict r domain

/-- A question that comes with all it needs is the same whatever the limit and the validations are. -/
theorem function_given (limit limit' : Nat) (validations validations' : Spf.Validations) (r : Resolver)
    (k : Check) :
    (k.given limit validations).function limit' validations' r = k.function limit validations r := by
  cases k <;> rfl

end Check

structure Checker where
  lookupLimit : Nat := Spf.defaultLimit
  validations : Spf.Validations := {}
  deriving DecidableEq

namespace Checker

/-- A new policy takes over what it is given of a limit and of validations, and keeps the rest. -/
def configure (c : Checker) (limit : Option Nat) (validations : Option Spf.Validations) : Checker :=
  ⟨limit.getD c.lookupLimit, validations.getD c.validations⟩

@[simp] theorem configure_none (c : Checker) : c.configure none none = c := rfl

def spfVerdict (c : Checker) (r : Resolver) (domain : String) : Lookup SetupState :=
  Spf.verdict r domain c.validations

def hasSpfSender (_ : Checker) (r : Resolver) (domain sender : String) : Lookup Bool :=
  Spf.hasSender r domain sender

def spfStaysWithin (c : Checker) (r : Resolver) (domain : String) : Lookup Bool :=
  Spf.staysWithin r domain c.lookupLimit

def spfBudget (c : Checker) (r : Resolver) (domain : String) : Lookup (Option Spf.Report) :=
  Spf.budget r domain c.lookupLimit

def dkimVerdict (_ : Checker) (r : Resolver) (domain selector : String) : Lookup SetupState :=
  Dkim.verdict r domain selector

def dkimVerdictOfAny (_ : Checker) (r : Resolver) (domain : String) (selectors : List String) :
    Lookup SetupState :=
  Dkim.verdictOfAny r domain selectors

def dmarcVerdict (_ : Checker) (r : Resolver) (domain : String) : Lookup SetupState :=
  Dmarc.verdict r domain

def run (c : Checker) (r : Resolver) : Check → Lookup Reply
  | .query name => .strings <$> Dns.query r name
  | .resolve name => .txt <$> resolveTxt r name
  | .spfRecord domain => .spfRecord <$> Spf.published r domain
  | .spfVerdict domain (some validations) => .state <$> Spf.verdict r domain validations
  | .spfVerdict domain none => .state <$> c.spfVerdict r domain
  | .spfSender domain sender .function => .holds <$> Spf.hasSender r domain sender
  | .spfSender domain sender .method => .holds <$> c.hasSpfSender r domain sender
  | .spfBudget domain (some limit) => .spfReport <$> Spf.budget r domain limit
  | .spfBudget domain none => .spfReport <$> c.spfBudget r domain
  | .spfStaysWithin domain (some limit) => .holds <$> Spf.staysWithin r domain limit
  | .spfStaysWithin domain none => .holds <$> c.spfStaysWithin r domain
  | .dkimVerdict domain selector .function => .state <$> Dkim.verdict r domain selector
  | .dkimVerdict domain selector .method => .state <$> c.dkimVerdict r domain selector
  | .dkimVerdictOfAny domain selectors .function => .state <$> Dkim.verdictOfAny r domain selectors
  | .dkimVerdictOfAny domain selectors .method => .state <$> c.dkimVerdictOfAny r domain selectors
  | .dmarcRecord domain => .dmarcRecord <$> Dmarc.published r domain
  | .dmarcVerdict domain .function => .state <$> Dmarc.verdict r domain
  | .dmarcVerdict domain .method => .state <$> c.dmarcVerdict r domain

/-- A method says what the function does that it belongs to, called with the limit and the validations of
the checker. -/
theorem run_eq_function (c : Checker) (r : Resolver) (k : Check) :
    c.run r k = k.function c.lookupLimit c.validations r := by
  cases k with
  | query | resolve | spfRecord | dmarcRecord => rfl
  | spfVerdict _ own | spfBudget _ own | spfStaysWithin _ own => cases own <;> rfl
  | spfSender _ _ way | dkimVerdict _ _ way | dkimVerdictOfAny _ _ way | dmarcVerdict _ way =>
    cases way <;> rfl

end Checker
end SenderAuth
