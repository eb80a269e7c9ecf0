import Mathlib.Data.List.Forall2
import SenderAuth.Proofs.Record.Terms

/-!
What becomes of the terms of a record. Each term leaves one thing behind, a directive, the value of a
modifier or an error, unless it is a modifier without a meaning here, and the record is made of what its
terms leave behind.
-/
namespace SenderAuth.Spf
open Text

/-- What a term leaves behind. -/
inductive Role
  | directive (d : Directive)
  | value (m : Modifier) (text : String)
  | error (d : Diagnostic)
  | passedOver
  deriving DecidableEq

namespace Role

def directive? : Role → Option Directive
  | directive d => some d
  | value .. | error _ | passedOver => none

def value? (m : Modifier) : Role → Option String
  | value n text => if n = m then some text else none
  | directive _ | error _ | passedOver => none

def error? : Role → Option Diagnostic
  | error d => some d
  | directive _ | value .. | passedOver => none

theorem length_filterMap_cons {α : Type} (f : Role → Option α) (r : Role) (roles : List Role) :
    ((r :: roles).filterMap f).length = (f r).toList.length + (roles.filterMap f).length := by
  cases h : f r with
  | none => simp [h]
  | some a => simp [h, Nat.add_comm]

/-- A role is of one sort only. -/
theorem counts_once (r : Role) :
    r.directive?.toList.length + r.error?.toList.length + (r.value? .redirect).toList.length +
      (r.value? .exp).toList.length + (if r == passedOver then 1 else 0) = 1 := by
  cases r with
  | value m text => cases m <;> rfl
  | directive d => rfl
  | error d => rfl
  | passedOver => rfl

theorem length_eq (roles : List Role) :
    roles.length = (roles.filterMap directive?).length + (roles.filterMap error?).length +
      (roles.filterMap (value? .redirect)).length + (roles.filterMap (value? .exp)).length +
      roles.count passedOver := by
  induction roles with
  | nil => rfl
  | cons r roles ih =>
    have hr := r.counts_once
    simp only [length_filterMap_cons, List.count_cons, List.length_cons]
    omega

end Role

/-- The error is about this term: it tells the term without its qualifier, quotes it, or names the
modifier that the term is. -/
def Diagnostic.IsAbout (term : List Char) : Diagnostic → Prop
  | unknownMechanism text => text = String.ofList (Qualifier.strip term).2
  | invalidArgument text _ => text = String.ofList term
  | duplicateModifier m => ∃ value, m.IsTerm value term
  | invalidVersion _ | mechanismAfterAll | noAllOrRedirect => False

/-- What a term can leave behind. -/
def Role.IsOf (term : List Char) : Role → Prop
  | directive d => Term.read term = .directive d
  | value m text => m.IsTerm text term ∧ text ≠ ""
  | error d => d.IsAbout term
  | passedOver => IsUnknownModifier term

/-- What a term leaves behind when others are read already. -/
def Seen.role (s : Seen) : Term → Role
  | .directive d => .directive d
  | .modifier m text => if s.has m then .error (.duplicateModifier m) else .value m text
  | .valueless m text =>
    .error (if s.has m then .duplicateModifier m else .invalidArgument text .valueRequired)
  | .unknownModifier => .passedOver
  | .fault d => .error d

def roles (s : Seen) : List Term → List Role
  | [] => []
  | t :: ts => s.role t :: roles (s.note t) ts

@[simp] theorem roles_nil (s : Seen) : roles s [] = [] := rfl

@[simp] theorem roles_cons (s : Seen) (t : Term) (ts : List Term) :
    roles s (t :: ts) = s.role t :: roles (s.note t) ts := rfl

@[simp] theorem length_roles (s : Seen) (ts : List Term) : (roles s ts).length = ts.length := by
  induction ts generalizing s with
  | nil => rfl
  | cons t ts ih => rw [roles_cons, List.length_cons, List.length_cons, ih]

theorem Modifier.isTerm_of_splitModifier? {m : Modifier} {term name value : List Char}
    (hsplit : splitModifier? term = some (name, value)) (hm : ofName? (folded name) = some m) :
    m.IsTerm (String.ofList value) term := by
  refine ⟨name, ofName?_eq_some_iff.1 hm, ?_⟩
  rw [String.toList_ofList]
  exact (splitModifier?_eq_some_iff.1 hsplit).1

theorem Seen.isOf_role_read (s : Seen) (term : List Char) :
    (s.role (Term.read term)).IsOf term := by
  cases hread : Term.read term with
  | directive d => exact hread
  | modifier m text =>
    obtain ⟨name, value, hsplit, hm, hvalue, rfl⟩ := Term.read_eq_modifier_iff.1 hread
    have hterm := Modifier.isTerm_of_splitModifier? hsplit hm
    rw [role]
    split
    · exact ⟨_, hterm⟩
    · exact ⟨hterm, by simpa using hvalue⟩
  | valueless m text =>
    obtain ⟨name, hsplit, hm, rfl⟩ := Term.read_eq_valueless_iff.1 hread
    rw [role]
    split
    · exact ⟨_, Modifier.isTerm_of_splitModifier? hsplit hm⟩
    · exact rfl
  | unknownModifier => exact Term.read_eq_unknownModifier_iff.1 hread
  | fault d =>
    rcases Term.read_eq_fault hread with rfl | ⟨fault, rfl⟩
    · exact rfl
    · exact rfl

theorem forall₂_roles (s : Seen) (terms : List (List Char)) :
    List.Forall₂ Role.IsOf terms (roles s (terms.map Term.read)) := by
  induction terms generalizing s with
  | nil => exact .nil
  | cons term terms ih => exact .cons (s.isOf_role_read term) (ih _)

theorem Seen.directive?_role (s : Seen) (t : Term) : (s.role t).directive? = t.directive? := by
  cases t with
  | modifier m text => cases h : s.has m <;> simp [role, h, Role.directive?]
  | directive d => rfl
  | valueless m text => rfl
  | unknownModifier => rfl
  | fault d => rfl

theorem filterMap_directive?_roles (s : Seen) (ts : List Term) :
    (roles s ts).filterMap Role.directive? = ts.filterMap Term.directive? := by
  induction ts generalizing s with
  | nil => rfl
  | cons t ts ih => rw [roles_cons, List.filterMap_cons, List.filterMap_cons, s.directive?_role, ih]

/-- Of what is said about a term, the error is what the term leaves behind. -/
theorem Seen.toList_error?_role (s : Seen) {t : Term} (hf : t.FaultIsError) :
    (s.role t).error?.toList = (s.complaint? t).toList.filter Diagnostic.isError := by
  cases t with
  | directive d =>
    have hwarning : Diagnostic.mechanismAfterAll.isError = false := rfl
    simp only [role, Role.error?, complaint?]
    split <;> simp [hwarning]
  | modifier m text =>
    have herror : (Diagnostic.duplicateModifier m).isError = true := rfl
    cases h : s.has m <;> simp [role, complaint?, h, Role.error?, herror]
  | valueless m text =>
    have herror : ∀ d : Diagnostic, d = .duplicateModifier m ∨ d = .invalidArgument text .valueRequired →
        d.isError = true := by
      rintro d (rfl | rfl) <;> rfl
    cases h : s.has m <;> simp [role, complaint?, h, Role.error?, herror]
  | unknownModifier => rfl
  | fault d => simp [role, complaint?, Role.error?, hf d rfl]

theorem filterMap_error?_roles (s : Seen) {ts : List Term} (h : ∀ t ∈ ts, t.FaultIsError) :
    (roles s ts).filterMap Role.error? = (diagnose s ts).filter Diagnostic.isError := by
  induction ts generalizing s with
  | nil =>
    refine (List.filter_eq_nil_iff.2 fun d hd => ?_).symm
    rw [Seen.eq_of_mem_finalComplaint? (Option.mem_toList.1 hd)]
    exact Bool.false_ne_true
  | cons t ts ih =>
    obtain ⟨ht, hts⟩ := List.forall_mem_cons.1 h
    rw [roles_cons, diagnose_cons, List.filter_append, ← ih (s.note t) hts, ← s.toList_error?_role ht,
      List.filterMap_cons]
    cases (s.role t).error? <;> rfl

theorem Seen.value?_role (s : Seen) (t : Term) (m : Modifier) :
    (s.role t).value? m = if s.has m then none else t.value? m := by
  cases t with
  | modifier n text =>
    by_cases hn : n = m
    · subst hn
      cases h : s.has n <;> simp [role, h, Role.value?]
    · cases h : s.has n <;> simp [role, h, Role.value?, hn]
  | directive d => simp [role, Role.value?]
  | valueless n text => simp [role, Role.value?]
  | unknownModifier => simp [role, Role.value?]
  | fault d => simp [role, Role.value?]

theorem Seen.has_note (s : Seen) (t : Term) (m : Modifier) :
    (s.note t).has m = (s.has m || (t.value? m).isSome) := by
  cases t with
  | modifier n text => by_cases hn : n = m <;> simp [hn, Bool.or_comm]
  | directive d => simp
  | valueless n text => simp [note]
  | unknownModifier => simp [note]
  | fault d => simp [note]

/-- Only the first value of a modifier is kept. -/
theorem filterMap_value?_roles (s : Seen) (ts : List Term) (m : Modifier) :
    (roles s ts).filterMap (Role.value? m) =
      if s.has m then [] else (ts.findSome? (Term.value? m)).toList := by
  induction ts generalizing s with
  | nil => simp
  | cons t ts ih =>
    rw [roles_cons, List.filterMap_cons, s.value?_role, ih, s.has_note, List.findSome?_cons]
    cases hseen : s.has m <;> cases hvalue : t.value? m <;> simp

theorem count_passedOver_roles (s : Seen) (ts : List Term) :
    (roles s ts).count .passedOver = ts.count .unknownModifier := by
  induction ts generalizing s with
  | nil => rfl
  | cons t ts ih =>
    have hstep : s.role t = .passedOver ↔ t = .unknownModifier := by
      cases t with
      | modifier m text => cases h : s.has m <;> simp [Seen.role, h]
      | directive d => simp [Seen.role]
      | valueless m text => simp [Seen.role]
      | unknownModifier => simp [Seen.role]
      | fault d => simp [Seen.role]
    simp [List.count_cons, ih, hstep]

theorem count_unknownModifier_map_read (terms : List (List Char)) :
    (terms.map Term.read).count .unknownModifier = terms.countP (IsUnknownModifier ·) := by
  rw [List.count, List.countP_map]
  congr 1
  funext term
  simp [beq_eq_decide, Term.read_eq_unknownModifier_iff]

/-- The record holds what these roles leave behind, in their order. -/
structure Record.IsMadeOf (record : Record) (roles : List Role) : Prop where
  directives : record.directives = roles.filterMap Role.directive?
  redirect : record.redirect.toList = roles.filterMap (Role.value? .redirect)
  explanation : record.explanation.toList = roles.filterMap (Role.value? .exp)
  errors : record.messages.filter Diagnostic.isError = roles.filterMap Role.error?

theorem isMadeOf_roles {ts : List Term} (h : ∀ t ∈ ts, t.FaultIsError) :
    (Record.ofTerms ts).IsMadeOf (roles {} ts) where
  directives := (filterMap_directive?_roles {} ts).symm
  redirect := (filterMap_value?_roles {} ts .redirect).symm
  explanation := (filterMap_value?_roles {} ts .exp).symm
  errors := (filterMap_error?_roles {} h).symm

/-- Each term is a directive, the kept value of a modifier, an error, or passed over. -/
theorem length_eq_ofTerms {ts : List Term} (h : ∀ t ∈ ts, t.FaultIsError) :
    ts.length = (Record.ofTerms ts).directives.length +
      ((Record.ofTerms ts).messages.filter Diagnostic.isError).length +
      (Record.ofTerms ts).redirect.toList.length + (Record.ofTerms ts).explanation.toList.length +
      ts.count .unknownModifier := by
  have hmade := isMadeOf_roles h
  rw [← length_roles {} ts, Role.length_eq, hmade.directives, hmade.errors, hmade.redirect,
    hmade.explanation, count_passedOver_roles]

/-- Each term behind the version tag leaves one thing behind in its place, and there is nothing else in
the record but its warnings. -/
theorem exists_roles {s : String} (h : ∀ found, .invalidVersion found ∉ (Record.parse s).messages) :
    (∃ roles, List.Forall₂ Role.IsOf (words s.toList).tail roles ∧
      (Record.parse s).IsMadeOf roles) ∧
    (words s.toList).tail.length = (Record.parse s).directives.length +
      ((Record.parse s).messages.filter Diagnostic.isError).length +
      (Record.parse s).redirect.isSome.toNat + (Record.parse s).explanation.isSome.toNat +
      (words s.toList).tail.countP (IsUnknownModifier ·) := by
  have hof := forall₂_roles {} (words s.toList).tail
  have hmade : (Record.parse s).IsMadeOf (roles {} ((words s.toList).tail.map Term.read)) := by
    rw [parse_eq_ofTerms_tail h]
    exact isMadeOf_roles faultIsError_of_mem_map_read
  have hlength (o : Option String) : o.isSome.toNat = o.toList.length := by cases o <;> rfl
  refine ⟨⟨_, hof, hmade⟩, ?_⟩
  rw [hof.length_eq, Role.length_eq, ← hmade.directives, ← hmade.errors, ← hmade.redirect,
    ← hmade.explanation, hlength, hlength, count_passedOver_roles, count_unknownModifier_map_read]

def motleyText : String :=
  "v=spf1 a redirect=x REDIRECT=y exp= exp=z unknown=1 bogus -all \u2003 ~mx/24"

theorem exists_roles_motleyText :
    (∀ found, .invalidVersion found ∉ (Record.parse motleyText).messages) ∧
    (∃ roles, List.Forall₂ Role.IsOf (words motleyText.toList).tail roles ∧
      (Record.parse motleyText).IsMadeOf roles) ∧
    (words motleyText.toList).tail.length = (Record.parse motleyText).directives.length +
      ((Record.parse motleyText).messages.filter Diagnostic.isError).length +
      (Record.parse motleyText).redirect.isSome.toNat +
      (Record.parse motleyText).explanation.isSome.toNat +
      (words motleyText.toList).tail.countP (IsUnknownModifier ·) := by
  have hversion := invalidVersion_notMem_parse_iff (s := motleyText).2 (by decide +kernel)
  exact ⟨hversion, exists_roles hversion⟩

end SenderAuth.Spf
