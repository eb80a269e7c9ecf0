import SenderAuth.Spf.Diagnostic
import SenderAuth.Text.Casing
import SenderAuth.Text.Split

/-!
Reading one term of an SPF record. A term is a modifier, `name=value`, or else a directive: a
qualifier, the name of a mechanism and its argument.
-/
namespace SenderAuth.Spf
open Text

/-- A prefix length is written in decimal digits, with leading zeros as one likes and maybe a plus in
front, and is below 256; the `max` of its address family is looked at only then. -/
def readLength (max : Nat) (cs : List Char) : Except ArgumentFault Nat :=
  let digits := (after? '+' cs).getD cs
  if digits = [] ∨ digits.all Char.isDigit = false ∨ 255 < decimalValue digits then
    .error (.lengthMalformed (String.ofList cs))
  else if max < decimalValue digits then .error (.lengthOutOfRange (decimalValue digits) max)
  else .ok (decimalValue digits)

theorem readLength_eq_ok_iff {max n : Nat} {cs : List Char} :
    readLength max cs = .ok n ↔
      ∃ digits, (cs = digits ∨ cs = '+' :: digits) ∧ IsDecimal n digits ∧ n ≤ 255 ∧ n ≤ max := by
  have hread : readLength max cs = .ok n ↔
      IsDecimal n ((after? '+' cs).getD cs) ∧ n ≤ 255 ∧ n ≤ max := by
    simp only [readLength, IsDecimal]
    grind
  rw [hread]
  constructor
  · intro h
    refine ⟨_, ?_, h⟩
    cases hplus : after? '+' cs with
    | none => exact .inl rfl
    | some digits => exact .inr (after?_eq_some_iff.1 hplus)
  · rintro ⟨digits, rfl | rfl, hdigits, hle⟩
    · have hplus : after? '+' cs = none := by
        cases h : after? '+' cs with
        | none => rfl
        | some rest =>
          obtain rfl := after?_eq_some_iff.1 h
          exact absurd (hdigits.2.1 '+' List.mem_cons_self) (by decide)
      rw [hplus]
      exact ⟨hdigits, hle⟩
    · rw [after?_cons_self]
      exact ⟨hdigits, hle⟩

def readOptionalLength (max : Nat) : Option (List Char) → Except ArgumentFault (Option Nat)
  | none => .ok none
  | some cs => (readLength max cs).map some

/-- What comes before a cut and, where there is one, after it. -/
def cutOff (cut : Option (List Char × List Char)) (whole : List Char) :
    List Char × Option (List Char) :=
  match cut with
  | some (before, after) => (before, some after)
  | none => (whole, none)

/-- The argument of a mechanism, told apart by the character that brings it in. -/
inductive Argument
  | absent
  | colon (text : List Char)
  | slash (text : List Char)

namespace Argument

/-- The slash in front belongs to the text, as the start of a prefix length. -/
def text : Argument → List Char
  | absent => []
  | colon text => text
  | slash text => '/' :: text

/-- A colon brings in the argument wherever there is one; without it the first slash does. -/
def split (cs : List Char) : List Char × Argument :=
  match splitFirst? ':' cs with
  | some (name, rest) => (name, colon rest)
  | none =>
    match splitFirst? '/' cs with
    | some (name, rest) => (name, slash rest)
    | none => (cs, absent)

def domain (arg : Argument) : Except ArgumentFault String :=
  if arg.text = [] then .error .domainRequired else .ok (String.ofList arg.text)

/-- What follows the first double slash is the IPv6 length, and what then follows the last slash is
the IPv4 length. A colon has to be followed by a domain. -/
def target (arg : Argument) : Except ArgumentFault Target := do
  let (rest, six) := cutOff (splitDouble? '/' arg.text) arg.text
  let cidr6 ← readOptionalLength 128 six
  let (name, four) := cutOff (splitLast? '/' rest) rest
  let cidr4 ← readOptionalLength 32 four
  match name, arg with
  | [], colon _ => .error .domainEmpty
  | [], _ => .ok ⟨none, cidr4, cidr6⟩
  | _ :: _, _ => .ok ⟨some (String.ofList name), cidr4, cidr6⟩

/-- The first slash ends the address. -/
def ip4 (arg : Argument) : Except ArgumentFault Mechanism := do
  let (address, length) := cutOff (splitFirst? '/' arg.text) arg.text
  let length ← readOptionalLength 32 length
  match Ipv4.parse? address with
  | some x => .ok (.ip4 x length)
  | none => .error (.addressMalformed .v4)

/-- The last slash ends the address. -/
def ip6 (arg : Argument) : Except ArgumentFault Mechanism := do
  let (address, length) := cutOff (splitLast? '/' arg.text) arg.text
  let length ← readOptionalLength 128 length
  match Ipv6.parse? address with
  | some x => .ok (.ip6 x length)
  | none => .error (.addressMalformed .v6)

def mechanism (arg : Argument) : MechanismKind → Except ArgumentFault Mechanism
  | .all =>
    match arg with
    | absent => .ok .all
    | colon _ | slash _ => .error .allTakesNone
  | .includes => arg.domain.map .includes
  | .existsAt => arg.domain.map .existsAt
  | .a => arg.target.map .a
  | .mx => arg.target.map .mx
  | .ptr =>
    match arg with
    | absent => .ok (.ptr none)
    | slash _ => .error .ptrTakesNoLength
    | colon _ => arg.domain.map fun d => .ptr (some d)
  | .ip4 =>
    match arg with
    | absent => .error (.addressRequired .v4)
    | colon _ | slash _ => arg.ip4
  | .ip6 =>
    match arg with
    | absent => .error (.addressRequired .v6)
    | colon _ | slash _ => arg.ip6

end Argument

/-- Without a mechanism of that name the term is told without its qualifier, and with a bad argument as
it is written. -/
def Directive.read (term : List Char) : Except Diagnostic Directive :=
  let (qualifier, rest) := Qualifier.strip term
  let (name, arg) := Argument.split rest
  match MechanismKind.ofName? (folded name) with
  | none => .error (.unknownMechanism (String.ofList rest))
  | some kind =>
    match arg.mechanism kind with
    | .ok mechanism => .ok ⟨qualifier, mechanism⟩
    | .error fault => .error (.invalidArgument (String.ofList term) fault)

/-- The name and value of a term that is a modifier: its name is made of letters and is not that of a
mechanism. -/
def splitModifier? (term : List Char) : Option (List Char × List Char) :=
  match splitFirst? '=' term with
  | none => none
  | some (name, value) =>
    if name ≠ [] ∧ name.all Char.isAlpha = true ∧ MechanismKind.ofName? (folded name) = none then
      some (name, value)
    else none

theorem splitModifier?_eq_some_iff {term name value : List Char} :
    splitModifier? term = some (name, value) ↔ term = name ++ '=' :: value ∧ name ≠ [] ∧
      name.all Char.isAlpha = true ∧ MechanismKind.ofName? (folded name) = none := by
  have hcut : name.all Char.isAlpha = true →
      (splitFirst? '=' term = some (name, value) ↔ term = name ++ '=' :: value) := by
    intro halpha
    have hno : '=' ∉ name := fun h => absurd (List.all_eq_true.1 halpha _ h) (by decide)
    simp [splitFirst?_eq_some_iff, hno]
  unfold splitModifier?
  constructor
  · intro h
    split at h
    · cases h
    · rename_i hfirst
      split at h
      · rename_i hname
        cases h
        exact ⟨(hcut hname.2.1).1 hfirst, hname⟩
      · cases h
  · rintro ⟨hterm, hname⟩
    rw [(hcut hname.2.1).2 hterm]
    exact if_pos hname

inductive Term
  | directive (d : Directive)
  | modifier (m : Modifier) (value : String)
  /-- A modifier with nothing after the equals sign, as it is written. -/
  | valueless (m : Modifier) (text : String)
  /-- A modifier without a meaning here; it is passed over. -/
  | unknownModifier
  | fault (d : Diagnostic)
  deriving DecidableEq

namespace Term

/-- A term that is not a modifier is read as a directive, whatever it looks like. -/
def read (term : List Char) : Term :=
  match splitModifier? term with
  | some (name, value) =>
    match Modifier.ofName? (folded name) with
    | none => unknownModifier
    | some m =>
      if value = [] then valueless m (String.ofList term) else modifier m (String.ofList value)
  | none =>
    match Directive.read term with
    | .ok d => directive d
    | .error e => fault e

def ofDirective : Except Diagnostic Directive → Term
  | .ok d => directive d
  | .error e => fault e

theorem ofDirective_inj {x y : Except Diagnostic Directive} : ofDirective x = ofDirective y ↔ x = y := by
  cases x <;> cases y <;> simp [ofDirective]

theorem read_of_no_modifier {term : List Char} (h : splitModifier? term = none) :
    read term = ofDirective (Directive.read term) := by
  rw [read, h]
  cases Directive.read term <;> rfl

theorem read_eq_ofDirective_iff (term : List Char) (result : Except Diagnostic Directive) :
    read term = ofDirective result ↔ splitModifier? term = none ∧ Directive.read term = result := by
  cases h : splitModifier? term with
  | none => rw [read_of_no_modifier h, ofDirective_inj, and_iff_right rfl]
  | some p =>
    refine iff_of_false ?_ nofun
    rw [read, h]
    cases result <;> dsimp only [ofDirective] <;> (split <;> try split) <;> simp

theorem read_eq_directive_iff {term : List Char} {d : Directive} :
    read term = directive d ↔ splitModifier? term = none ∧ Directive.read term = .ok d :=
  read_eq_ofDirective_iff term (.ok d)

theorem read_eq_fault_iff {term : List Char} {e : Diagnostic} :
    read term = fault e ↔ splitModifier? term = none ∧ Directive.read term = .error e :=
  read_eq_ofDirective_iff term (.error e)

theorem read_eq_modifier_iff {term : List Char} {m : Modifier} {value : String} :
    read term = modifier m value ↔ ∃ name rest, splitModifier? term = some (name, rest) ∧
      Modifier.ofName? (folded name) = some m ∧ rest ≠ [] ∧ value = String.ofList rest := by
  constructor
  · intro h
    unfold read at h
    split at h
    · rename_i name rest hsplit
      split at h
      · cases h
      · rename_i n hn
        split at h
        · cases h
        · rename_i hrest
          cases h
          exact ⟨name, rest, hsplit, hn, hrest, rfl⟩
    · split at h <;> cases h
  · rintro ⟨name, rest, hsplit, hm, hrest, rfl⟩
    rw [read, hsplit]
    simp only [hm, if_neg hrest]

theorem read_eq_valueless_iff {term : List Char} {m : Modifier} {text : String} :
    read term = valueless m text ↔ ∃ name, splitModifier? term = some (name, []) ∧
      Modifier.ofName? (folded name) = some m ∧ text = String.ofList term := by
  constructor
  · intro h
    unfold read at h
    split at h
    · rename_i name value hsplit
      split at h
      · cases h
      · rename_i n hn
        split at h
        · rename_i hvalue
          subst hvalue
          cases h
          exact ⟨name, hsplit, hn, rfl⟩
        · cases h
    · split at h <;> cases h
  · rintro ⟨name, hsplit, hm, rfl⟩
    rw [read, hsplit]
    simp only [hm, if_true]

def directive? : Term → Option Directive
  | directive d => some d
  | _ => none

def value? (m : Modifier) : Term → Option String
  | modifier n value => if n = m then some value else none
  | _ => none

@[simp] theorem directive?_directive (d : Directive) : (directive d).directive? = some d := rfl

@[simp] theorem directive?_modifier (m : Modifier) (value : String) :
    (modifier m value).directive? = none := rfl

@[simp] theorem value?_directive (m : Modifier) (d : Directive) : (directive d).value? m = none := rfl

@[simp] theorem value?_modifier (m n : Modifier) (value : String) :
    (modifier n value).value? m = if n = m then some value else none := rfl

@[simp] theorem value?_valueless (m n : Modifier) (text : String) :
    (valueless n text).value? m = none := rfl

@[simp] theorem value?_unknownModifier (m : Modifier) : unknownModifier.value? m = none := rfl

@[simp] theorem value?_fault (m : Modifier) (d : Diagnostic) : (fault d).value? m = none := rfl

@[simp] theorem directive?_eq_some_iff {t : Term} {d : Directive} :
    t.directive? = some d ↔ t = directive d := by
  cases t <;> simp [directive?]

@[simp] theorem value?_eq_some_iff {m : Modifier} {t : Term} {value : String} :
    t.value? m = some value ↔ t = modifier m value := by
  cases t <;> simp [value?]

end Term
end SenderAuth.Spf
