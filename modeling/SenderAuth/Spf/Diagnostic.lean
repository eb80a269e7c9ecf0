import SenderAuth.Spf.Mechanism

/-!
What can be wrong with an SPF record, and how it is worded.
-/
namespace SenderAuth.Spf

inductive IpFamily
  | v4 | v6
  deriving DecidableEq, Repr

namespace IpFamily

def name : IpFamily → String
  | v4 => "IPv4"
  | v6 => "IPv6"

def kind : IpFamily → MechanismKind
  | v4 => .ip4
  | v6 => .ip6

end IpFamily

/-- What can be wrong with the argument of a term whose name is known. -/
inductive ArgumentFault
  | allTakesNone
  | domainRequired
  | domainEmpty
  | ptrTakesNoLength
  | addressRequired (family : IpFamily)
  | addressMalformed (family : IpFamily)
  | lengthMalformed (text : String)
  | lengthOutOfRange (length max : Nat)
  | valueRequired
  deriving DecidableEq, Repr

def ArgumentFault.reason : ArgumentFault → String
  | allTakesNone => "all takes no argument"
  | domainRequired => "a domain argument is required"
  | domainEmpty => "empty domain after ':'"
  | ptrTakesNoLength => "ptr takes no prefix length"
  | addressRequired family => family.kind.name ++ " requires an address"
  | addressMalformed family =>
    "invalid " ++ family.name ++ " address: invalid " ++ family.name ++ " address syntax"
  | lengthMalformed text => "invalid prefix length: " ++ text
  | lengthOutOfRange length max =>
    "prefix length " ++ length.repr ++ " out of range (0-" ++ max.repr ++ ")"
  | valueRequired => "modifier requires a domain"

inductive Severity
  | error | warning
  deriving DecidableEq, Repr

inductive DiagnosticKind
  | invalidVersion | unknownMechanism | invalidArgument | duplicateModifier | mechanismAfterAll
  | noAllOrRedirect
  deriving DecidableEq, Repr

/-- A record with an error cannot be used; a warning says that it hardly means what it was meant to. -/
def DiagnosticKind.severity : DiagnosticKind → Severity
  | invalidVersion | unknownMechanism | invalidArgument | duplicateModifier => .error
  | mechanismAfterAll | noAllOrRedirect => .warning

inductive Diagnostic
  | invalidVersion (found : String)
  | unknownMechanism (text : String)
  | invalidArgument (term : String) (fault : ArgumentFault)
  | duplicateModifier (modifier : Modifier)
  | mechanismAfterAll
  | noAllOrRedirect
  deriving DecidableEq, Repr

namespace Diagnostic

def kind : Diagnostic → DiagnosticKind
  | invalidVersion _ => .invalidVersion
  | unknownMechanism _ => .unknownMechanism
  | invalidArgument .. => .invalidArgument
  | duplicateModifier _ => .duplicateModifier
  | mechanismAfterAll => .mechanismAfterAll
  | noAllOrRedirect => .noAllOrRedirect

def severity (d : Diagnostic) : Severity := d.kind.severity

def isError (d : Diagnostic) : Bool := d.severity = .error

/-- The texts that a diagnostic quotes. Together with the kind they tell it from every other. -/
def quoted : Diagnostic → List String
  | invalidVersion found => [found]
  | unknownMechanism text => [text]
  | invalidArgument term fault => [term, fault.reason]
  | duplicateModifier modifier => [modifier.name]
  | mechanismAfterAll | noAllOrRedirect => []

def message : Diagnostic → String
  | invalidVersion found => "invalid SPF version: " ++ found
  | unknownMechanism text => "unknown mechanism: " ++ text
  | invalidArgument term fault => "invalid term '" ++ term ++ "': " ++ fault.reason
  | duplicateModifier modifier => "duplicate " ++ modifier.name ++ " modifier"
  | mechanismAfterAll =>
    "one or more mechanisms were found after the \"all\" mechanism and will be ignored"
  | noAllOrRedirect =>
    "record uses neither an \"all\" mechanism nor a \"redirect\" modifier to terminate processing"

end Diagnostic
end SenderAuth.Spf
