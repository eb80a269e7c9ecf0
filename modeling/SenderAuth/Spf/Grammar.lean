import SenderAuth.Spf.Canonical

/-!
How the text of an SPF record may be written. Names are in any letter case, the sign of pass may be left
out, zeros may stand in front of a length, ASCII white space of any kind comes before each term, and the
two modifiers stand wherever they like among the directives.
-/
namespace SenderAuth.Spf
open Text

def IsValue (s : String) : Prop := s ≠ "" ∧ ∀ c ∈ s.toList, isBlank c = false

instance (s : String) : Decidable (IsValue s) :=
  decidable_of_iff (s ≠ "" ∧ s.toList.all (!isBlank ·) = true) (by simp [IsValue])

theorem IsValue.toList_ne_nil {s : String} (h : IsValue s) : s.toList ≠ [] :=
  fun hnil => h.1 (String.toList_eq_nil_iff.1 hnil)

namespace Mechanism

def target? : Mechanism → Option Target
  | a target | mx target => some target
  | _ => none

def length4 : Mechanism → Option Nat
  | a target | mx target => target.cidr4
  | ip4 _ length => length
  | _ => none

def length6 : Mechanism → Option Nat
  | a target | mx target => target.cidr6
  | ip6 _ length => length
  | _ => none

structure WellFormed (m : Mechanism) : Prop where
  domain : ∀ x ∈ m.domain, IsValue x
  length4 : ∀ n ∈ m.length4, n ≤ 32
  length6 : ∀ n ∈ m.length6, n ≤ 128

theorem wellFormed_iff {m : Mechanism} : m.WellFormed ↔ (∀ x ∈ m.domain, IsValue x) ∧
    (∀ n ∈ m.length4, n ≤ 32) ∧ ∀ n ∈ m.length6, n ≤ 128 :=
  ⟨fun h => ⟨h.domain, h.length4, h.length6⟩, fun h => ⟨h.1, h.2.1, h.2.2⟩⟩

instance (m : Mechanism) : Decidable m.WellFormed := decidable_of_iff _ wellFormed_iff.symm

end Mechanism

/-- A separator with a text behind it, or nothing. -/
def separated (sep : List Char) : Option (List Char) → List Char
  | none => []
  | some cs => sep ++ cs

/-- The digits of a length that need not be there. -/
inductive IsLength : Option Nat → Option (List Char) → Prop
  | absent : IsLength none none
  | present {n : Nat} {digits : List Char} (h : IsDecimal n digits) :
      IsLength (some n) (some digits)

inductive Qualifier.IsSign : Qualifier → List Char → Prop
  | written (q : Qualifier) : q.IsSign [q.sign]
  | omitted : pass.IsSign []

def Target.IsArgument (t : Target) (cs : List Char) : Prop :=
  ∃ four six, IsLength t.cidr4 four ∧ IsLength t.cidr6 six ∧
    cs = renderDomain t.domain ++ separated ['/'] four ++ separated ['/', '/'] six

def Mechanism.IsArgument : Mechanism → List Char → Prop
  | all, cs => cs = []
  | includes domain, cs | existsAt domain, cs => cs = ':' :: domain.toList
  | a target, cs | mx target, cs => target.IsArgument cs
  | ptr domain, cs => cs = renderDomain domain
  | ip4 address length, cs =>
    ∃ digits, IsLength length digits ∧ cs = ':' :: (address.render ++ separated ['/'] digits)
  | ip6 address length, cs =>
    ∃ groups digits, Ipv6.IsGroups address.groups groups ∧ IsLength length digits ∧
      cs = ':' :: (groups ++ separated ['/'] digits)

def Directive.IsTerm (d : Directive) (cs : List Char) : Prop :=
  ∃ sign name arg, d.qualifier.IsSign sign ∧ folded name = d.mechanism.kind.name ∧
    d.mechanism.IsArgument arg ∧ cs = sign ++ (name ++ arg)

def Modifier.IsTerm (m : Modifier) (value : String) (cs : List Char) : Prop :=
  ∃ name, folded name = m.name ∧ cs = name ++ '=' :: value.toList

/-- A modifier whose name is neither that of a mechanism nor has a meaning here. -/
def IsUnknownModifier (cs : List Char) : Prop :=
  ∃ name value, cs = name ++ '=' :: value ∧ name ≠ [] ∧ (∀ c ∈ name, c.isAlpha = true) ∧
    (∀ k : MechanismKind, folded name ≠ k.name) ∧ ∀ m : Modifier, folded name ≠ m.name

def Term.IsText : Term → List Char → Prop
  | directive d, cs => d.IsTerm cs
  | modifier m value, cs => m.IsTerm value cs
  | _, _ => False

/-- The text behind the version tag. -/
inductive IsBody : List Term → List Char → Prop
  | nil : IsBody [] []
  | cons {t : Term} {ts : List Term} {gap term cs : List Char} (hne : gap ≠ [])
      (hgap : ∀ c ∈ gap, isAsciiBlank c = true) (ht : t.IsText term) (hts : IsBody ts cs) :
      IsBody (t :: ts) (gap ++ (term ++ cs))

/-- The directives keep their order among the terms, and each modifier that is there comes once. -/
structure Arranges (ts : List Term) (directives : List Directive)
    (redirect explanation : Option String) : Prop where
  directives : ts.filterMap Term.directive? = directives
  redirect : ts.filterMap (Term.value? .redirect) = redirect.toList
  explanation : ts.filterMap (Term.value? .exp) = explanation.toList

/-- A text that says these directives and modifiers and nothing else. -/
def IsText (directives : List Directive) (redirect explanation : Option String) (s : String) : Prop :=
  ∃ lead tag ts body trail, s.toList = lead ++ (tag ++ (body ++ trail)) ∧
    (∀ c ∈ lead, isBlank c = true) ∧ lowerAscii tag = version ∧
    Arranges ts directives redirect explanation ∧ IsBody ts body ∧ ∀ c ∈ trail, isBlank c = true

end SenderAuth.Spf
