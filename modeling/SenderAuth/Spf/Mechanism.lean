import SenderAuth.Address.Ipv6

/-!
What an SPF record says: directives, each a qualifier with a mechanism, and modifiers.
-/
namespace SenderAuth.Spf

inductive Qualifier
  | pass | fail | softFail | neutral
  deriving DecidableEq, Repr

namespace Qualifier

def sign : Qualifier → Char
  | pass => '+'
  | fail => '-'
  | softFail => '~'
  | neutral => '?'

def ofSign? : Char → Option Qualifier
  | '+' => some pass
  | '-' => some fail
  | '~' => some softFail
  | '?' => some neutral
  | _ => none

@[simp] theorem ofSign?_sign (q : Qualifier) : ofSign? q.sign = some q := by cases q <;> rfl

theorem ofSign?_eq_some_iff {c : Char} {q : Qualifier} : ofSign? c = some q ↔ c = q.sign := by
  constructor
  · intro h
    unfold ofSign? at h
    split at h <;> cases h <;> rfl
  · rintro rfl
    exact ofSign?_sign q

/-- The qualifier that a term starts with, pass where none is written, and the rest of the term. -/
def strip (cs : List Char) : Qualifier × List Char :=
  match cs.head?.bind ofSign? with
  | some q => (q, cs.tail)
  | none => (pass, cs)

end Qualifier

/-- The kinds of mechanism, each written by its own name. -/
inductive MechanismKind
  | all | includes | a | mx | ptr | existsAt | ip4 | ip6
  deriving DecidableEq, Repr

namespace MechanismKind

def name : MechanismKind → String
  | all => "all"
  | includes => "include"
  | a => "a"
  | mx => "mx"
  | ptr => "ptr"
  | existsAt => "exists"
  | ip4 => "ip4"
  | ip6 => "ip6"

def kinds : List MechanismKind := [all, includes, a, mx, ptr, existsAt, ip4, ip6]

def ofName? (s : String) : Option MechanismKind := kinds.find? (·.name = s)

@[simp] theorem ofName?_name (k : MechanismKind) : ofName? k.name = some k := by
  cases k <;> decide

theorem ofName?_eq_some_iff {s : String} {k : MechanismKind} : ofName? s = some k ↔ s = k.name := by
  constructor
  · intro h
    simpa [eq_comm] using List.find?_some h
  · rintro rfl
    exact ofName?_name k

end MechanismKind

/-- The hosts that an `a` or `mx` mechanism is about: those of a domain, or of the record's own domain
where none is given, up to a prefix length in each address family. -/
structure Target where
  domain : Option String
  cidr4 : Option Nat
  cidr6 : Option Nat
  deriving DecidableEq, Repr

inductive Mechanism
  | all
  | includes (domain : String)
  | a (target : Target)
  | mx (target : Target)
  | ptr (domain : Option String)
  | existsAt (domain : String)
  | ip4 (address : Ipv4) (length : Option Nat)
  | ip6 (address : Ipv6) (length : Option Nat)
  deriving DecidableEq

namespace Mechanism

def kind : Mechanism → MechanismKind
  | all => .all
  | includes _ => .includes
  | a _ => .a
  | mx _ => .mx
  | ptr _ => .ptr
  | existsAt _ => .existsAt
  | ip4 .. => .ip4
  | ip6 .. => .ip6

def domain : Mechanism → Option String
  | includes domain | existsAt domain => some domain
  | a target | mx target => target.domain
  | ptr domain => domain
  | all | ip4 .. | ip6 .. => none

end Mechanism

structure Directive where
  qualifier : Qualifier
  mechanism : Mechanism
  deriving DecidableEq

def Directive.isAll (d : Directive) : Bool := d.mechanism = .all

/-- The modifiers that have a meaning here. -/
inductive Modifier
  | redirect | exp
  deriving DecidableEq, Repr

namespace Modifier

def name : Modifier → String
  | redirect => "redirect"
  | exp => "exp"

def ofName? (s : String) : Option Modifier :=
  if s = redirect.name then some redirect else if s = exp.name then some exp else none

@[simp] theorem ofName?_name (m : Modifier) : ofName? m.name = some m := by cases m <;> decide

theorem forall_iff {p : Modifier → Prop} : (∀ m, p m) ↔ p redirect ∧ p exp :=
  ⟨fun h => ⟨h redirect, h exp⟩, fun h m => match m with
    | redirect => h.1
    | exp => h.2⟩

theorem ofName?_eq_some_iff {s : String} {m : Modifier} : ofName? s = some m ↔ s = m.name := by
  constructor
  · intro h
    unfold ofName? at h
    split at h
    · cases h
      assumption
    · split at h
      · cases h
        assumption
      · cases h
  · rintro rfl
    exact ofName?_name m

end Modifier

end SenderAuth.Spf
