import SenderAuth.Spf.Record

/-!
What the terms of a record come to, part by part: the directives, the first value of each modifier, and the
messages, which hang on four facts about the terms in front. Reading the terms one after the other comes to this.
-/
namespace SenderAuth.Spf
open Text

/-- What the terms read so far have left behind. -/
structure Seen where
  all : Bool := false
  redirect : Bool := false
  exp : Bool := false
  /-- whether a mechanism after `all` was already reported -/
  warned : Bool := false
  deriving DecidableEq

namespace Seen

def has (s : Seen) : Modifier → Bool
  | .redirect => s.redirect
  | .exp => s.exp

def mark (s : Seen) : Modifier → Seen
  | .redirect => { s with redirect := true }
  | .exp => { s with exp := true }

@[simp] theorem has_mark (s : Seen) (m n : Modifier) :
    (s.mark m).has n = (decide (m = n) || s.has n) := by
  cases m <;> cases n <;> rfl

theorem mark_of_has {s : Seen} {m : Modifier} (h : s.has m = true) : s.mark m = s := by
  cases m with
  | redirect =>
    have hredirect : s.redirect = true := h
    simp [mark, ← hredirect]
  | exp =>
    have hexp : s.exp = true := h
    simp [mark, ← hexp]

def complaint? (s : Seen) : Term → Option Diagnostic
  | .directive _ => if s.all && !s.warned then some .mechanismAfterAll else none
  | .modifier m _ => if s.has m then some (.duplicateModifier m) else none
  | .valueless m text =>
    some (if s.has m then .duplicateModifier m else .invalidArgument text .valueRequired)
  | .unknownModifier => none
  | .fault d => some d

def note (s : Seen) : Term → Seen
  | .directive d => { s with all := s.all || d.isAll, warned := s.warned || s.all }
  | .modifier m _ => s.mark m
  | .valueless .. | .unknownModifier | .fault _ => s

@[simp] theorem has_note_directive (s : Seen) (d : Directive) (m : Modifier) :
    (s.note (.directive d)).has m = s.has m := by
  cases m <;> rfl

@[simp] theorem note_modifier (s : Seen) (m : Modifier) (value : String) :
    s.note (.modifier m value) = s.mark m := rfl

def finalComplaint? (s : Seen) : Option Diagnostic :=
  if s.all || s.redirect then none else some .noAllOrRedirect

end Seen

/-- The messages about a list of terms, in the order of the terms. -/
def diagnose (s : Seen) : List Term → List Diagnostic
  | [] => s.finalComplaint?.toList
  | t :: ts => (s.complaint? t).toList ++ diagnose (s.note t) ts

@[simp] theorem diagnose_nil (s : Seen) : diagnose s [] = s.finalComplaint?.toList := rfl

@[simp] theorem diagnose_cons (s : Seen) (t : Term) (ts : List Term) :
    diagnose s (t :: ts) = (s.complaint? t).toList ++ diagnose (s.note t) ts := rfl

/-- All directives count; of each modifier the first value does. -/
def Record.ofTerms (ts : List Term) : Record where
  directives := ts.filterMap Term.directive?
  redirect := ts.findSome? (Term.value? .redirect)
  explanation := ts.findSome? (Term.value? .exp)
  messages := diagnose {} ts

namespace Draft

def seen (d : Draft) : Seen := ⟨d.seenAll, d.redirect.isSome, d.explanation.isSome, d.warned⟩

@[simp] theorem has_seen (d : Draft) (m : Modifier) : d.seen.has m = (d.value? m).isSome := by
  cases m <;> rfl

@[simp] theorem directives_set (d : Draft) (value : String) (m : Modifier) :
    (d.set value m).directives = d.directives := by
  cases m <;> rfl

@[simp] theorem messages_set (d : Draft) (value : String) (m : Modifier) :
    (d.set value m).messages = d.messages := by
  cases m <;> rfl

@[simp] theorem seen_set (d : Draft) (value : String) (m : Modifier) :
    (d.set value m).seen = d.seen.mark m := by
  cases m <;> rfl

theorem value?_set (d : Draft) (value : String) (m n : Modifier) :
    (d.set value m).value? n = if m = n then some value else d.value? n := by
  cases m <;> cases n <;> rfl

@[simp] theorem directives_tell (d : Draft) (message : Diagnostic) :
    (d.tell message).directives = d.directives := rfl

@[simp] theorem value?_tell (d : Draft) (message : Diagnostic) (m : Modifier) :
    (d.tell message).value? m = d.value? m := by
  cases m <;> rfl

@[simp] theorem seen_tell (d : Draft) (message : Diagnostic) : (d.tell message).seen = d.seen := rfl

/-! What one term does to each part. -/

theorem directives_add (d : Draft) (t : Term) :
    (d.add t).directives = d.directives ++ t.directive?.toList := by
  cases t with
  | directive => rfl
  | modifier m value =>
    by_cases h : (d.value? m).isSome = true <;> simp [add, h]
  | valueless m text =>
    by_cases h : (d.value? m).isSome = true <;> simp [add, h, Term.directive?]
  | unknownModifier => simp [add, Term.directive?]
  | fault message => simp [add, Term.directive?]

/-- A value that is there stays there. -/
theorem value?_add (d : Draft) (t : Term) (m : Modifier) :
    (d.add t).value? m = (d.value? m).or (t.value? m) := by
  cases t with
  | directive directive =>
    by_cases h : (d.seenAll && !d.warned) = true <;> cases m <;> simp [add, h, value?, tell]
  | modifier n value =>
    cases h : d.value? n with
    | some earlier =>
      by_cases hn : n = m
      · simp [add, h, ← hn]
      · simp [add, h, hn]
    | none =>
      by_cases hn : n = m
      · simp [add, h, ← hn, value?_set]
      · simp [add, h, hn, value?_set]
  | valueless n text =>
    by_cases h : (d.value? n).isSome = true <;> simp [add, h]
  | unknownModifier => simp [add]
  | fault message => simp [add]

theorem messages_add (d : Draft) (t : Term) :
    (d.add t).messages = d.messages ++ (d.seen.complaint? t).toList := by
  cases t with
  | directive directive =>
    by_cases h : (d.seenAll && !d.warned) = true <;> simp [add, h, Seen.complaint?, seen, tell]
  | modifier m value =>
    by_cases h : (d.value? m).isSome = true <;> simp [add, h, Seen.complaint?, tell]
  | valueless m text =>
    by_cases h : (d.value? m).isSome = true <;> simp [add, h, Seen.complaint?, tell]
  | unknownModifier => simp [add, Seen.complaint?]
  | fault message => rfl

theorem seen_add (d : Draft) (t : Term) : (d.add t).seen = d.seen.note t := by
  cases t with
  | directive directive =>
    cases hall : d.seenAll <;> cases hwarned : d.warned <;>
      simp [add, hall, hwarned, seen, tell, Seen.note]
  | modifier m value =>
    by_cases h : (d.value? m).isSome = true
    · have hmark : d.seen.mark m = d.seen := Seen.mark_of_has (by rw [has_seen, h])
      simp [add, h, hmark]
    · simp [add, h]
  | valueless m text =>
    by_cases h : (d.value? m).isSome = true <;> simp [add, h, Seen.note]
  | unknownModifier => rfl
  | fault message => rfl

theorem messages_finish (d : Draft) :
    d.finish.messages = d.messages ++ d.seen.finalComplaint?.toList := by
  unfold finish Seen.finalComplaint?
  by_cases h : (d.seenAll || d.redirect.isSome) = true <;> simp [h, seen]

/-- What reading comes to from a draft on. -/
theorem finish_foldl_add (d : Draft) (ts : List Term) :
    (ts.foldl add d).finish =
      { directives := d.directives ++ ts.filterMap Term.directive?
        redirect := d.redirect.or (ts.findSome? (Term.value? .redirect))
        explanation := d.explanation.or (ts.findSome? (Term.value? .exp))
        messages := d.messages ++ diagnose d.seen ts } := by
  induction ts generalizing d with
  | nil =>
    rw [diagnose_nil, ← messages_finish]
    simp [finish]
  | cons t ts ih =>
    have hredirect : (d.add t).redirect = d.redirect.or (t.value? .redirect) := value?_add d t .redirect
    have hexplanation : (d.add t).explanation = d.explanation.or (t.value? .exp) := value?_add d t .exp
    have hdirectives : (t :: ts).filterMap Term.directive? =
        t.directive?.toList ++ ts.filterMap Term.directive? := by
      cases h : t.directive? <;> simp [h]
    have hvalue (m : Modifier) : (t :: ts).findSome? (Term.value? m) =
        (t.value? m).or (ts.findSome? (Term.value? m)) := by
      cases h : t.value? m <;> simp [h]
    rw [List.foldl_cons, ih, directives_add, hredirect, hexplanation, messages_add, seen_add]
    simp only [hdirectives, hvalue, diagnose_cons, List.append_assoc, Option.or_assoc]

end Draft

/-- Reading terms one after the other comes to their summary. -/
theorem Record.gather_eq_ofTerms (ts : List Term) : gather ts = ofTerms ts := by
  rw [gather, Draft.finish_foldl_add]
  rfl

theorem Record.parse_eq (s : String) :
    parse s = match afterVersion? (trim s.toList) with
      | some rest => ofTerms ((words rest).map Term.read)
      | none => unversioned (String.ofList ((words s.toList).headD [])) := by
  rw [parse]
  cases afterVersion? (trim s.toList) with
  | none => rfl
  | some rest => exact gather_eq_ofTerms _

end SenderAuth.Spf
