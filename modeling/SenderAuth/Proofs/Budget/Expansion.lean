import Mathlib.Data.Seq.Basic
import SenderAuth.Proofs.Budget.Ledger

/-!
The terms of a record without a limit: a sequence that goes into every included record and has no end
where records include each other. Behind each term stands the whole expansion of the record that it
includes, and only the last entry can be a failure.
-/
namespace SenderAuth.Spf
open Dns
open Stream' (Seq)

/-- An entry of an expansion: a term that counts, or the failure to fetch what it includes, which ends
the expansion. -/
inductive Event
  | term (c : Counted)
  | failure (e : Failure)
  deriving DecidableEq

/-- The terms that come in right behind a term: those of the record that it includes. -/
def Counted.behind (r : Resolver) : Counted → Except Failure (List Counted)
  | .address => .ok []
  | .includes domain =>
    (published r domain).outcome.map fun included => countedTerms (directivesOf included)

def nextEvent (r : Resolver) :
    Except Failure (List Counted) → Option (Event × Except Failure (List Counted))
  | .ok [] => none
  | .ok (c :: rest) => some (.term c, (c.behind r).map (· ++ rest))
  | .error e => some (.failure e, .ok [])

def expansion (r : Resolver) (terms : List Counted) : Seq Event := Seq.corec (nextEvent r) (.ok terms)

def Record.expansion (r : Resolver) (record : Record) : Seq Event :=
  Spf.expansion r (countedTerms record.directives)

variable {r : Resolver}

theorem behind_includes_of_error {domain : String} {e : Failure}
    (h : (published r domain).outcome = .error e) : (Counted.includes domain).behind r = .error e := by
  rw [Counted.behind, h]
  rfl

theorem behind_includes_of_ok {domain : String} {included : Option Record}
    (h : (published r domain).outcome = .ok included) :
    (Counted.includes domain).behind r = .ok (countedTerms (directivesOf included)) := by
  rw [Counted.behind, h]
  rfl

@[simp] theorem expansion_nil : expansion r [] = Seq.nil := Seq.corec_nil _ _ rfl

theorem expansion_cons_of_ok {c : Counted} {terms : List Counted} (h : c.behind r = .ok terms)
    (rest : List Counted) :
    expansion r (c :: rest) = Seq.cons (.term c) (expansion r (terms ++ rest)) :=
  Seq.corec_cons (by simp [nextEvent, h, Except.map])

theorem expansion_cons_of_error {c : Counted} {e : Failure} (h : c.behind r = .error e)
    (rest : List Counted) :
    expansion r (c :: rest) = Seq.cons (.term c) (Seq.cons (.failure e) Seq.nil) := by
  have hfailure : Seq.corec (nextEvent r) (.error e) = Seq.cons (.failure e) Seq.nil := by
    rw [Seq.corec_cons (f := nextEvent r) (b := .error e) rfl, Seq.corec_nil _ _ rfl]
  rw [expansion, Seq.corec_cons (f := nextEvent r) (x := .term c) (s := .error e), hfailure]
  simp [nextEvent, h, Except.map]

/-- Nothing comes behind a failure. -/
theorem expansion_append_of_failure {xs : List Counted}
    (h : ∃ e, Event.failure e ∈ expansion r xs) (ys : List Counted) :
    expansion r (xs ++ ys) = expansion r xs := by
  apply Seq.eq_of_bisim_strong fun s t => ∃ zs, (∃ e, Event.failure e ∈ expansion r zs) ∧
    s = expansion r (zs ++ ys) ∧ t = expansion r zs
  · exact ⟨xs, h, rfl, rfl⟩
  · rintro _ _ ⟨zs, ⟨e, hfailure⟩, rfl, rfl⟩
    cases zs with
    | nil => simp at hfailure
    | cons c rest =>
      cases hbehind : c.behind r with
      | error e => exact .inl (by simp [expansion_cons_of_error hbehind])
      | ok terms =>
        have hrest : Event.failure e ∈ expansion r (terms ++ rest) := by
          simpa [expansion_cons_of_ok hbehind] using hfailure
        rw [List.cons_append, expansion_cons_of_ok hbehind, expansion_cons_of_ok hbehind]
        exact .inr ⟨_, _, _, rfl, rfl, terms ++ rest, ⟨e, hrest⟩, by rw [List.append_assoc], rfl⟩

theorem expansion_append_of_no_failure {xs : List Counted}
    (h : ∀ e, Event.failure e ∉ expansion r xs) (ys : List Counted) :
    expansion r (xs ++ ys) = (expansion r xs).append (expansion r ys) := by
  apply Seq.eq_of_bisim_strong fun s t => ∃ zs, (∀ e, Event.failure e ∉ expansion r zs) ∧
    s = expansion r (zs ++ ys) ∧ t = (expansion r zs).append (expansion r ys)
  · exact ⟨xs, h, rfl, rfl⟩
  · rintro _ _ ⟨zs, hnone, rfl, rfl⟩
    cases zs with
    | nil => exact .inl (by simp)
    | cons c rest =>
      cases hbehind : c.behind r with
      | error e => exact absurd (by simp [expansion_cons_of_error hbehind]) (hnone e)
      | ok terms =>
        have hrest (e : Failure) : Event.failure e ∉ expansion r (terms ++ rest) := by
          simpa [expansion_cons_of_ok hbehind] using hnone e
        rw [List.cons_append, expansion_cons_of_ok hbehind, expansion_cons_of_ok hbehind,
          Seq.cons_append]
        exact .inr ⟨_, _, _, rfl, rfl, terms ++ rest, hrest, by rw [List.append_assoc], rfl⟩

open Classical in
/-- One sequence after another. Nothing comes after a failure. -/
noncomputable def followedBy (s t : Seq Event) : Seq Event :=
  if ∃ e, .failure e ∈ s then s else s.append t

theorem followedBy_of_no_failure {s : Seq Event} (h : ∀ e, .failure e ∉ s) (t : Seq Event) :
    followedBy s t = s.append t := by
  rw [followedBy, if_neg (by simpa using h)]

theorem expansion_append (xs ys : List Counted) :
    expansion r (xs ++ ys) = followedBy (expansion r xs) (expansion r ys) := by
  unfold followedBy
  split_ifs with h
  · exact expansion_append_of_failure h ys
  · exact expansion_append_of_no_failure (by simpa using h) ys

def Counted.expansionBehind (r : Resolver) (c : Counted) : Seq Event :=
  match c.behind r with
  | .ok terms => expansion r terms
  | .error e => Seq.cons (.failure e) Seq.nil

/-- The terms of an expansion are those of the record in order, each followed by the whole expansion of
the record that it includes. -/
theorem expansion_cons (c : Counted) (rest : List Counted) :
    expansion r (c :: rest) =
      Seq.cons (.term c) (followedBy (c.expansionBehind r) (expansion r rest)) := by
  cases h : c.behind r with
  | ok terms =>
    have hbehind : c.expansionBehind r = expansion r terms := by simp [Counted.expansionBehind, h]
    rw [expansion_cons_of_ok h, expansion_append, hbehind]
  | error e =>
    have hbehind : c.expansionBehind r = Seq.cons (.failure e) Seq.nil := by
      simp [Counted.expansionBehind, h]
    rw [expansion_cons_of_error h, hbehind, followedBy, if_pos ⟨e, Seq.mem_cons _ _⟩]

/-- An expansion does not start with a failure. -/
theorem get?_zero_ne_failure (terms : List Counted) (e : Failure) :
    (expansion r terms).get? 0 ≠ some (.failure e) := by
  cases terms with
  | nil => simp
  | cons c rest =>
    simp [expansion_cons]

/-- In front of an entry stands a term, and in front of a failure the term that it is about. -/
theorem exists_term_of_get?_succ {terms : List Counted} {i : Nat} {event : Event}
    (h : (expansion r terms).get? (i + 1) = some event) :
    ∃ c, (expansion r terms).get? i = some (.term c) ∧
      ∀ e, event = .failure e → c.behind r = .error e := by
  induction i generalizing terms with
  | zero =>
    cases terms with
    | nil => simp at h
    | cons c rest =>
      refine ⟨c, by simp [expansion_cons], ?_⟩
      rintro e rfl
      cases hbehind : c.behind r with
      | error e' => simp_all [expansion_cons_of_error hbehind]
      | ok terms =>
        rw [expansion_cons_of_ok hbehind, Seq.get?_cons_succ] at h
        exact absurd h (get?_zero_ne_failure _ e)
  | succ i ih =>
    cases terms with
    | nil => simp at h
    | cons c rest =>
      cases hbehind : c.behind r with
      | error e => simp [expansion_cons_of_error hbehind] at h
      | ok terms =>
        rw [expansion_cons_of_ok hbehind, Seq.get?_cons_succ] at h ⊢
        exact ih h

/-- Only the last entry of an expansion can be a failure. -/
theorem exists_term_of_lt {terms : List Counted} {i j : Nat} {event : Event}
    (h : (expansion r terms).get? i = some event) (hj : j < i) :
    ∃ c, (expansion r terms).get? j = some (.term c) := by
  obtain ⟨next, hnext⟩ := Seq.ge_stable _ (Nat.succ_le_of_lt hj) h
  obtain ⟨c, hc, -⟩ := exists_term_of_get?_succ hnext
  exact ⟨c, hc⟩

end SenderAuth.Spf
