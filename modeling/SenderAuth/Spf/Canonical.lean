import SenderAuth.Spf.Record

/-!
The canonical text of an SPF record: every qualifier is written, names are in lower case, numbers are
plain, and the modifiers come last.
-/
namespace SenderAuth.Spf

def renderLength (slashes : List Char) : Option Nat → List Char
  | none => []
  | some n => slashes ++ Nat.toDigits 10 n

def renderDomain : Option String → List Char
  | none => []
  | some d => ':' :: d.toList

def Target.render (t : Target) : List Char :=
  renderDomain t.domain ++ renderLength ['/'] t.cidr4 ++ renderLength ['/', '/'] t.cidr6

def Mechanism.argument : Mechanism → List Char
  | all => []
  | includes domain | existsAt domain => ':' :: domain.toList
  | a target | mx target => target.render
  | ptr domain => renderDomain domain
  | ip4 address length => ':' :: address.render ++ renderLength ['/'] length
  | ip6 address length => ':' :: address.render ++ renderLength ['/'] length

def Mechanism.render (m : Mechanism) : List Char := m.kind.name.toList ++ m.argument

def Directive.render (d : Directive) : List Char := d.qualifier.sign :: d.mechanism.render

def Modifier.render (m : Modifier) : Option String → List (List Char)
  | none => []
  | some value => [m.name.toList ++ '=' :: value.toList]

def Record.terms (r : Record) : List (List Char) :=
  r.directives.map Directive.render ++ Modifier.redirect.render r.redirect ++
    Modifier.exp.render r.explanation

def spell (terms : List (List Char)) : String :=
  String.ofList (version ++ terms.flatMap (' ' :: ·))

def Record.render (r : Record) : String := spell r.terms

end SenderAuth.Spf
