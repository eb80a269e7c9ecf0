import Mathlib.Tactic.FinCases
import SenderAuth.Proofs.Check.View

/-!
DKIM over several selectors. The first selector that decides, by a key or by a failure, gives the verdict,
and no name behind it is asked for. Where no answer fails it comes down to whether a key is at one of the
names, and then neither the order of the selectors nor their repetition matters.
-/
namespace SenderAuth.Dkim
open Dns Text

variable {r : Resolver} {domain selector : String}

theorem outcome_verdict_eq_sight : (verdict r domain selector).outcome =
    (sight inked (r (DomainName.dkim selector domain))).map
      fun seen => seen.elim SetupState.notSetup fun _ => .setup := by
  rw [verdict_eq_map_inked]
  exact outcome_map_resolveTxt _ fun seen => seen.elim SetupState.notSetup fun _ => .setup

/-- One of the strings at the name is not blank. -/
def KeyAt (r : Resolver) (name : String) : Prop :=
  ∃ records, r name = .ok records ∧ ∃ s ∈ records, ∃ c ∈ s.toList, isBlank c = false

theorem outcome_verdict_eq_setup_iff :
    (verdict r domain selector).outcome = .ok .setup ↔ KeyAt r (DomainName.dkim selector domain) := by
  have hkey : sight inked (r (DomainName.dkim selector domain)) = .ok (some ()) ↔
      KeyAt r (DomainName.dkim selector domain) := by
    rw [sight_eq_ok_some_iff inked_nil]
    simp [inked, KeyAt]
  rw [outcome_verdict_eq_sight, ← hkey]
  cases sight inked (r (DomainName.dkim selector domain)) with
  | error e => simp [Except.map]
  | ok seen => cases seen <;> simp [Except.map]

/-- A selector puts an end to the search: a key is there, or the answer could not be had. -/
def Decides (r : Resolver) (domain selector : String) : Prop :=
  (verdict r domain selector).outcome = .ok .setup ∨
    ∃ e, (verdict r domain selector).outcome = .error e

theorem not_decides_iff :
    ¬ Decides r domain selector ↔ (verdict r domain selector).outcome = .ok .notSetup := by
  rw [Decides, outcome_verdict_eq_sight]
  cases sight inked (r (DomainName.dkim selector domain)) with
  | error e => simp [Except.map]
  | ok seen => cases seen <;> simp [Except.map]

theorem verdictOfAny_cons_of_decides (h : Decides r domain selector) (selectors : List String) :
    verdictOfAny r domain (selector :: selectors) = verdict r domain selector := by
  rw [verdictOfAny_cons]
  rcases h with hsetup | ⟨e, he⟩
  · rw [Lookup.bind_of_ok hsetup]
    ext1
    · simp [SetupState.isSetup]
    · simp [SetupState.isSetup, hsetup]
  · rw [Lookup.bind_of_error he]
    ext1
    · rfl
    · exact he.symm

theorem verdictOfAny_cons_of_not_decides (h : ¬ Decides r domain selector) (selectors : List String) :
    verdictOfAny r domain (selector :: selectors) =
      ⟨DomainName.dkim selector domain :: (verdictOfAny r domain selectors).asked,
        (verdictOfAny r domain selectors).outcome⟩ := by
  rw [verdictOfAny_cons, Lookup.bind_of_ok (not_decides_iff.1 h), asked_verdict]
  rfl

/-- Selectors that do not decide are asked about, one after the other, and leave the verdict to the
others. -/
theorem verdictOfAny_append_of_not_decides {before : List String}
    (h : ∀ selector ∈ before, ¬ Decides r domain selector) (after : List String) :
    verdictOfAny r domain (before ++ after) =
      ⟨before.map (DomainName.dkim · domain) ++ (verdictOfAny r domain after).asked,
        (verdictOfAny r domain after).outcome⟩ := by
  induction before with
  | nil => rfl
  | cons selector before ih =>
    obtain ⟨hselector, hbefore⟩ := List.forall_mem_cons.1 h
    rw [List.cons_append, verdictOfAny_cons_of_not_decides hselector, ih hbefore]
    rfl

theorem verdictOfAny_of_not_decides {selectors : List String}
    (h : ∀ selector ∈ selectors, ¬ Decides r domain selector) :
    verdictOfAny r domain selectors = ⟨selectors.map (DomainName.dkim · domain), .ok .notSetup⟩ := by
  have hall := verdictOfAny_append_of_not_decides h []
  simpa using hall

theorem verdictOfAny_of_decides {before : List String}
    (hbefore : ∀ selector ∈ before, ¬ Decides r domain selector) (h : Decides r domain selector)
    (after : List String) :
    verdictOfAny r domain (before ++ selector :: after) =
      ⟨(before ++ [selector]).map (DomainName.dkim · domain), (verdict r domain selector).outcome⟩ := by
  rw [verdictOfAny_append_of_not_decides hbefore, verdictOfAny_cons_of_decides h, asked_verdict]
  simp

/-- Either a first selector decides or none does. -/
theorem decides_cases (r : Resolver) (domain : String) (selectors : List String) :
    (∃ before selector after, selectors = before ++ selector :: after ∧
      (∀ s ∈ before, ¬ Decides r domain s) ∧ Decides r domain selector) ∨
    ∀ selector ∈ selectors, ¬ Decides r domain selector := by
  classical
  cases hfirst : selectors.find? (Decides r domain ·) with
  | none => exact .inr (by simpa using hfirst)
  | some selector =>
    obtain ⟨hdecides, before, after, rfl, hbefore⟩ := List.find?_eq_some_iff_append.1 hfirst
    exact .inl ⟨before, selector, after, rfl, by simpa using hbefore, by simpa using hdecides⟩

theorem outcome_verdictOfAny_ne_invalid (selectors : List String) :
    (verdictOfAny r domain selectors).outcome ≠ .ok .invalid := by
  rcases decides_cases r domain selectors with
    ⟨before, selector, after, rfl, hbefore, hsetup | ⟨e, he⟩⟩ | hnone
  · rw [verdictOfAny_of_decides hbefore (.inl hsetup), hsetup]
    nofun
  · rw [verdictOfAny_of_decides hbefore (.inr ⟨e, he⟩), he]
    nofun
  · rw [verdictOfAny_of_not_decides hnone]
    nofun

theorem outcome_verdictOfAny_eq_notSetup_iff {selectors : List String} :
    (verdictOfAny r domain selectors).outcome = .ok .notSetup ↔
      ∀ selector ∈ selectors, ¬ Decides r domain selector := by
  constructor
  · intro h
    rcases decides_cases r domain selectors with
      ⟨before, selector, after, rfl, hbefore, hdecides⟩ | hnone
    · rw [verdictOfAny_of_decides hbefore hdecides] at h
      exact absurd hdecides (not_decides_iff.2 h)
    · exact hnone
  · intro h
    rw [verdictOfAny_of_not_decides h]

theorem verdictOfAny_append_of_ne {xs : List String}
    (h : (verdictOfAny r domain xs).outcome ≠ .ok .notSetup) (ys : List String) :
    verdictOfAny r domain (xs ++ ys) = verdictOfAny r domain xs := by
  rcases decides_cases r domain xs with
    ⟨before, selector, after, rfl, hbefore, hdecides⟩ | hnone
  · rw [List.append_assoc, List.cons_append, verdictOfAny_of_decides hbefore hdecides,
      verdictOfAny_of_decides hbefore hdecides]
  · exact absurd (outcome_verdictOfAny_eq_notSetup_iff.2 hnone) h

theorem verdictOfAny_append_of_notSetup {xs : List String}
    (h : (verdictOfAny r domain xs).outcome = .ok .notSetup) (ys : List String) :
    verdictOfAny r domain (xs ++ ys) =
      ⟨(verdictOfAny r domain xs).asked ++ (verdictOfAny r domain ys).asked,
        (verdictOfAny r domain ys).outcome⟩ := by
  have hnone := outcome_verdictOfAny_eq_notSetup_iff.1 h
  rw [verdictOfAny_append_of_not_decides hnone, verdictOfAny_of_not_decides hnone]

theorem decides_iff_of_transientFree (h : TransientFree r) :
    Decides r domain selector ↔ KeyAt r (DomainName.dkim selector domain) := by
  obtain ⟨answer, hanswer⟩ := h.exists_ofAnswer_eq_ok (DomainName.dkim selector domain)
  have hok : ¬ ∃ e, (verdict r domain selector).outcome = .error e := by
    rw [verdict, Lookup.outcome_map, outcome_resolveTxt, hanswer]
    simp [Except.map]
  rw [Decides, outcome_verdict_eq_setup_iff, or_iff_left hok]

/-- Without transient answers a key at one of the names is all that counts. -/
theorem outcome_verdictOfAny_of_transientFree (h : TransientFree r) (selectors : List String) :
    ((∃ selector ∈ selectors, KeyAt r (DomainName.dkim selector domain)) ∧
      (verdictOfAny r domain selectors).outcome = .ok .setup) ∨
    ((∀ selector ∈ selectors, ¬ KeyAt r (DomainName.dkim selector domain)) ∧
      (verdictOfAny r domain selectors).outcome = .ok .notSetup) := by
  rcases decides_cases r domain selectors with
    ⟨before, selector, after, rfl, hbefore, hdecides⟩ | hnone
  · have hkey := (decides_iff_of_transientFree h).1 hdecides
    refine .inl ⟨⟨selector, by simp, hkey⟩, ?_⟩
    rw [verdictOfAny_of_decides hbefore hdecides]
    exact outcome_verdict_eq_setup_iff.2 hkey
  · exact .inr ⟨fun s hs => mt (decides_iff_of_transientFree h).2 (hnone s hs),
      outcome_verdictOfAny_eq_notSetup_iff.2 hnone⟩

theorem outcome_verdictOfAny_eq_setup_iff (h : TransientFree r) {selectors : List String} :
    (verdictOfAny r domain selectors).outcome = .ok .setup ↔
      ∃ selector ∈ selectors, KeyAt r (DomainName.dkim selector domain) := by
  rcases outcome_verdictOfAny_of_transientFree h selectors with ⟨hkey, houtcome⟩ | ⟨hnone, houtcome⟩
  · exact iff_of_true houtcome hkey
  · rw [houtcome]
    exact iff_of_false nofun fun ⟨s, hs, hkey⟩ => hnone s hs hkey

/-- The first selector that decides gives the verdict, and those in front of it and no others are asked
about; if none decides, all are, and nothing is set up. So two lists of selectors are gone through one
after the other, the second only if the first leaves it open. Without transient answers what counts is
that a key is at one of the names. -/
theorem verdictOfAny_first_decisive (r : Resolver) (domain : String) :
    (∀ before selector after, (∀ s ∈ before, ¬ Decides r domain s) → Decides r domain selector →
      verdictOfAny r domain (before ++ selector :: after) =
        ⟨(before ++ [selector]).map (DomainName.dkim · domain),
          (verdict r domain selector).outcome⟩) ∧
    (∀ selectors, (∀ s ∈ selectors, ¬ Decides r domain s) →
      verdictOfAny r domain selectors =
        ⟨selectors.map (DomainName.dkim · domain), .ok .notSetup⟩) ∧
    (∀ selectors, (verdictOfAny r domain selectors).outcome ≠ .ok .invalid) ∧
    (∀ xs ys,
      ((verdictOfAny r domain xs).outcome ≠ .ok .notSetup →
        verdictOfAny r domain (xs ++ ys) = verdictOfAny r domain xs) ∧
      ((verdictOfAny r domain xs).outcome = .ok .notSetup →
        verdictOfAny r domain (xs ++ ys) =
          ⟨(verdictOfAny r domain xs).asked ++ (verdictOfAny r domain ys).asked,
            (verdictOfAny r domain ys).outcome⟩)) ∧
    (TransientFree r →
      (∀ selectors,
        ((verdictOfAny r domain selectors).outcome = .ok .setup ↔
          ∃ selector ∈ selectors, KeyAt r (DomainName.dkim selector domain)) ∧
        ((verdictOfAny r domain selectors).outcome = .ok .setup ∨
          (verdictOfAny r domain selectors).outcome = .ok .notSetup)) ∧
      ∀ xs ys : List String, (∀ selector, selector ∈ xs ↔ selector ∈ ys) →
        (verdictOfAny r domain xs).outcome = (verdictOfAny r domain ys).outcome) := by
  refine ⟨fun before selector after hbefore h => verdictOfAny_of_decides hbefore h after,
    fun selectors h => verdictOfAny_of_not_decides h, outcome_verdictOfAny_ne_invalid,
    fun xs ys => ⟨fun h => verdictOfAny_append_of_ne h ys,
      fun h => verdictOfAny_append_of_notSetup h ys⟩,
    fun h => ⟨fun selectors => ⟨outcome_verdictOfAny_eq_setup_iff h, ?_⟩, fun xs ys hmem => ?_⟩⟩
  · rcases outcome_verdictOfAny_of_transientFree h selectors with ⟨-, houtcome⟩ | ⟨-, houtcome⟩
    · exact .inl houtcome
    · exact .inr houtcome
  · rcases outcome_verdictOfAny_of_transientFree h xs with ⟨⟨s, hs, hkey⟩, hxs⟩ | ⟨hnone, hxs⟩
    · rw [hxs, (outcome_verdictOfAny_eq_setup_iff h).2 ⟨s, (hmem s).1 hs, hkey⟩]
    · rw [hxs, eq_comm, outcome_verdictOfAny_eq_notSetup_iff]
      exact fun s hs => mt (decides_iff_of_transientFree h).1 (hnone s ((hmem s).2 hs))

/-- A domain with a key under one selector, a blank string under another, and a selector that cannot be
looked up. -/
def rotated : Zone :=
  ((Zone.empty.addTxt "current._domainkey.example.com" ["v=DKIM1; p="]).addTxt
    "old._domainkey.example.com" ["", " "]).addFailure "lost._domainkey.example.com" .servFail

theorem verdictOfAny_first_decisive_rotated :
    TransientFree rotated.answer ∧
      (∀ s ∈ ["lost", "Old"], ¬ Decides rotated.answer "Example.com." s) ∧
      Decides rotated.answer "Example.com." "current" ∧
      verdictOfAny rotated.answer "Example.com." ["lost", "Old", "current", "next"] =
        ⟨["lost._domainkey.example.com", "old._domainkey.example.com",
          "current._domainkey.example.com"], .ok .setup⟩ ∧
      (verdictOfAny rotated.answer "Example.com." ["current", "Old", "current"]).outcome =
        (verdictOfAny rotated.answer "Example.com." ["Old", "current"]).outcome := by
  have hfree : TransientFree rotated.answer := Zone.transientFree_answer (by decide)
  have hundecided : ∀ s ∈ ["lost", "Old"], ¬ Decides rotated.answer "Example.com." s := by
    intro s hs
    rw [not_decides_iff]
    fin_cases hs <;> rfl
  have hdecides : Decides rotated.answer "Example.com." "current" := .inl rfl
  obtain ⟨hfirst, -, -, -, hkeys⟩ := verdictOfAny_first_decisive rotated.answer "Example.com."
  refine ⟨hfree, hundecided, hdecides, ?_, (hkeys hfree).2 _ _ (by simp [or_comm])⟩
  exact hfirst ["lost", "Old"] "current" ["next"] hundecided hdecides

end SenderAuth.Dkim
