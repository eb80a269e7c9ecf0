import SenderAuth.Dns.Failure

/-!
Work that asks a resolver for TXT records. A piece of work is its outcome together with the names it
asked for; work stops at the first failure that is not absence.
-/
namespace SenderAuth.Dns

/-- The TXT answer to each name. -/
abbrev Resolver := String → Except Failure (List String)

structure Lookup (α : Type) where
  /-- the names asked for, in order -/
  asked : List String
  outcome : Except Failure α

namespace Lookup
variable {α β γ : Type}

protected def pure (a : α) : Lookup α := ⟨[], .ok a⟩

/-- The second piece of work is done, and its names asked for, only after a first that did not fail. -/
protected def bind (x : Lookup α) (f : α → Lookup β) : Lookup β :=
  match x.outcome with
  | .ok a => ⟨x.asked ++ (f a).asked, (f a).outcome⟩
  | .error e => ⟨x.asked, .error e⟩

protected def map (f : α → β) (x : Lookup α) : Lookup β := ⟨x.asked, x.outcome.map f⟩

instance : Monad Lookup where
  pure := Lookup.pure
  bind := Lookup.bind
  map := Lookup.map

@[ext] theorem ext {x y : Lookup α} (h : x.asked = y.asked) (k : x.outcome = y.outcome) : x = y := by
  cases x; cases y; cases h; cases k; rfl

@[simp] theorem asked_pure (a : α) : (pure a : Lookup α).asked = [] := rfl

@[simp] theorem outcome_pure (a : α) : (pure a : Lookup α).outcome = .ok a := rfl

theorem bind_of_ok {x : Lookup α} {a : α} (h : x.outcome = .ok a) (f : α → Lookup β) :
    x >>= f = ⟨x.asked ++ (f a).asked, (f a).outcome⟩ := by
  show Lookup.bind x f = _
  simp [Lookup.bind, h]

theorem bind_of_error {x : Lookup α} {e : Failure} (h : x.outcome = .error e) (f : α → Lookup β) :
    x >>= f = ⟨x.asked, .error e⟩ := by
  show Lookup.bind x f = _
  simp [Lookup.bind, h]

/-- A question in front of a piece of work is in front of all that follows. -/
theorem bind_cons (name : String) (x : Lookup α) (f : α → Lookup β) :
    (⟨name :: x.asked, x.outcome⟩ : Lookup α) >>= f =
      ⟨name :: (x >>= f).asked, (x >>= f).outcome⟩ := by
  obtain ⟨asked, outcome⟩ := x
  cases outcome <;> rfl

theorem outcome_bind (x : Lookup α) (f : α → Lookup β) :
    (x >>= f).outcome = x.outcome.bind fun a => (f a).outcome := by
  cases h : x.outcome with
  | ok a => rw [bind_of_ok h]; rfl
  | error e => rw [bind_of_error h]; rfl

theorem exists_of_outcome_bind {x : Lookup α} {f : α → Lookup β} {b : β}
    (h : (x >>= f).outcome = .ok b) : ∃ a, x.outcome = .ok a ∧ (f a).outcome = .ok b := by
  rw [outcome_bind] at h
  cases hx : x.outcome with
  | ok a => exact ⟨a, rfl, by rwa [hx] at h⟩
  | error e => rw [hx] at h; cases h

/-- What follows a piece of work matters only where the work is done. -/
theorem bind_congr_of_ok {x : Lookup α} {f g : α → Lookup β} (h : ∀ a, x.outcome = .ok a → f a = g a) :
    x >>= f = x >>= g := by
  cases hx : x.outcome with
  | ok a => rw [bind_of_ok hx, bind_of_ok hx, h a hx]
  | error e => rw [bind_of_error hx, bind_of_error hx]

@[simp] theorem asked_map (f : α → β) (x : Lookup α) : (f <$> x).asked = x.asked := rfl

@[simp] theorem outcome_map (f : α → β) (x : Lookup α) :
    (f <$> x).outcome = x.outcome.map f := rfl

theorem map_congr_of_ok {x : Lookup α} {f g : α → β} (h : ∀ a, x.outcome = .ok a → f a = g a) :
    f <$> x = g <$> x := by
  cases hx : x.outcome with
  | ok a => ext1 <;> simp [hx, Except.map, h a hx]
  | error e => ext1 <;> simp [hx, Except.map]

instance : LawfulMonad Lookup := LawfulMonad.mk' Lookup
  (by intro α x; cases h : x.outcome <;> ext1 <;> simp [h, Except.map])
  (by intro α β a f; rw [bind_of_ok (outcome_pure a)]; simp)
  (by
    intro α β γ x f g
    cases hx : x.outcome with
    | error e =>
      rw [bind_of_error hx, bind_of_error hx]
      exact bind_of_error rfl g
    | ok a =>
      rw [bind_of_ok hx, bind_of_ok hx]
      cases hf : (f a).outcome with
      | error e => rw [bind_of_error rfl, bind_of_error hf]
      | ok b => rw [bind_of_ok rfl, bind_of_ok hf, List.append_assoc])
  (by intros; rfl) (by intros; rfl) (by intros; rfl)
  (by
    intro α β f x
    cases h : x.outcome with
    | ok a => rw [bind_of_ok h]; ext1 <;> simp [h, Except.map]
    | error e => rw [bind_of_error h]; ext1 <;> simp [h, Except.map])

end Lookup

/-- Asks for one name and takes the answer as it is. -/
def query (r : Resolver) (name : String) : Lookup (List String) := ⟨[name], r name⟩

@[simp] theorem asked_query (r : Resolver) (name : String) : (query r name).asked = [name] := rfl

@[simp] theorem outcome_query (r : Resolver) (name : String) : (query r name).outcome = r name := rfl

/-- What is at a name: no TXT record, or some. -/
inductive TxtLookup
  | absent
  | found (records : List String)
  deriving DecidableEq

namespace TxtLookup

def records : TxtLookup → List String
  | absent => []
  | found records => records

def isAbsent : TxtLookup → Bool
  | absent => true
  | found _ => false

/-- Reads an answer: an empty one and a failure that means absence say that nothing is there. -/
def ofAnswer : Except Failure (List String) → Except Failure TxtLookup
  | .ok [] => .ok absent
  | .ok records => .ok (found records)
  | .error e => if e.isAbsence then .ok absent else .error e

theorem ofAnswer_eq_error_iff {answer : Except Failure (List String)} {e : Failure} :
    ofAnswer answer = .error e ↔ answer = .error e ∧ e.isAbsence = false := by
  unfold ofAnswer
  split
  · simp
  · simp
  · rename_i f
    by_cases h : f.isAbsence = true
    · simp only [h, if_true, reduceCtorEq, Except.error.injEq, false_iff, not_and]
      rintro rfl
      simp [h]
    · simp only [h, if_false, Except.error.injEq, Bool.false_eq_true]
      constructor
      · rintro rfl
        exact ⟨rfl, by simpa using h⟩
      · exact And.left

theorem ofAnswer_error_of_not_transient {e : Failure} (h : ¬ e.Transient) :
    ofAnswer (.error e) = .ok absent :=
  if_pos (Failure.not_transient_iff.1 h)

end TxtLookup

/-- No name is answered with a failure other than absence. -/
def TransientFree (r : Resolver) : Prop := ∀ name e, r name = .error e → e.isAbsence = true

theorem TransientFree.exists_ofAnswer_eq_ok {r : Resolver} (h : TransientFree r) (name : String) :
    ∃ answer, TxtLookup.ofAnswer (r name) = .ok answer := by
  cases hanswer : TxtLookup.ofAnswer (r name) with
  | ok answer => exact ⟨answer, rfl⟩
  | error e =>
    obtain ⟨hfails, htransient⟩ := TxtLookup.ofAnswer_eq_error_iff.mp hanswer
    simp [h name e hfails] at htransient

/-- Asks for one name and reads the answer. -/
def resolveTxt (r : Resolver) (name : String) : Lookup TxtLookup :=
  ⟨[name], TxtLookup.ofAnswer (r name)⟩

@[simp] theorem asked_resolveTxt (r : Resolver) (name : String) :
    (resolveTxt r name).asked = [name] := rfl

@[simp] theorem outcome_resolveTxt (r : Resolver) (name : String) :
    (resolveTxt r name).outcome = TxtLookup.ofAnswer (r name) := rfl

end SenderAuth.Dns
