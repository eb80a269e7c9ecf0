import SenderAuth.Checker
import SenderAuth.Proofs.Budget.Reading

/-!
Failures of the checks. A check that gets a transient answer stops there and fails with it, and nothing
else makes a check fail; that there is nothing at a name is never a failure.
-/
namespace SenderAuth
namespace Dns

def Settled (r : Resolver) (name : String) : Prop := ∀ e, r name = .error e → ¬ e.Transient

theorem TxtLookup.ofAnswer_eq_error_iff_transient {answer : Except Failure (List String)}
    {e : Failure} : ofAnswer answer = .error e ↔ answer = .error e ∧ e.Transient := by
  rw [ofAnswer_eq_error_iff, Failure.transient_iff]

namespace Lookup
variable {r : Resolver} {α β : Type} {x : Lookup α}

/-- Work that stops with the first transient answer and fails with it, and does not fail before. -/
structure StopsAtFailure (r : Resolver) (x : Lookup α) : Prop where
  settled : ∀ a, x.outcome = .ok a → ∀ name ∈ x.asked, Settled r name
  stopped : ∀ e, x.outcome = .error e → ∃ before name, x.asked = before ++ [name] ∧
    (∀ n ∈ before, Settled r n) ∧ r name = .error e ∧ e.Transient

theorem stopsAtFailure_pure (a : α) : StopsAtFailure r (pure a) where
  settled _ _ name hname := absurd hname List.not_mem_nil
  stopped e h := by rw [outcome_pure] at h; cases h

theorem stopsAtFailure_resolveTxt (name : String) : StopsAtFailure r (resolveTxt r name) where
  settled answer h n hn e he hfails := by
    obtain rfl : n = name := by simpa using hn
    have herror := TxtLookup.ofAnswer_eq_error_iff_transient.2 ⟨he, hfails⟩
    rw [outcome_resolveTxt, herror] at h
    cases h
  stopped e h := ⟨[], name, rfl, by simp, TxtLookup.ofAnswer_eq_error_iff_transient.1 h⟩

theorem StopsAtFailure.bind {f : α → Lookup β} (hx : StopsAtFailure r x)
    (hf : ∀ a, x.outcome = .ok a → StopsAtFailure r (f a)) : StopsAtFailure r (x >>= f) := by
  cases h : x.outcome with
  | error e =>
    rw [bind_of_error h]
    refine ⟨nofun, fun e' he' => ?_⟩
    obtain rfl : e = e' := Except.error.inj he'
    exact hx.stopped e h
  | ok a =>
    have hfirst := hx.settled a h
    have hsecond := hf a h
    rw [bind_of_ok h]
    refine ⟨fun b hb name hname => ?_, fun e he => ?_⟩
    · rcases List.mem_append.1 hname with hname | hname
      · exact hfirst name hname
      · exact hsecond.settled b hb name hname
    · obtain ⟨before, name, hasked, hbefore, hlast⟩ := hsecond.stopped e he
      refine ⟨x.asked ++ before, name, by simp only [hasked, List.append_assoc], ?_, hlast⟩
      intro n hn
      rcases List.mem_append.1 hn with hn | hn
      · exact hfirst n hn
      · exact hbefore n hn

theorem StopsAtFailure.map (hx : StopsAtFailure r x) (f : α → β) : StopsAtFailure r (f <$> x) := by
  rw [← bind_pure_comp]
  exact hx.bind fun a _ => stopsAtFailure_pure (f a)

namespace StopsAtFailure

/-- Behind a transient answer no further name is asked for. -/
theorem eq_nil_of_transient (hx : StopsAtFailure r x) {before after : List String} {name : String}
    (hasked : x.asked = before ++ name :: after) {e : Failure} (he : r name = .error e)
    (htransient : e.Transient) : after = [] := by
  cases h : x.outcome with
  | ok a => exact absurd htransient (hx.settled a h name (by simp [hasked]) e he)
  | error e' =>
    obtain ⟨settled, last, hstopped, hsettled, -⟩ := hx.stopped e' h
    rcases List.eq_nil_or_concat after with rfl | ⟨after, final, rfl⟩
    · rfl
    · -- the name stands in front of the last one, where all answers are settled
      have hcut : (before ++ name :: after) ++ [final] = settled ++ [last] := by
        rw [← hstopped, hasked]; simp
      have hinit : before ++ name :: after = settled := (List.append_inj' hcut rfl).1
      exact absurd htransient (hsettled name (by simp [← hinit]) e he)

theorem outcome_eq_error_iff (hx : StopsAtFailure r x) {e : Failure} :
    x.outcome = .error e ↔
      ∃ name, x.asked.getLast? = some name ∧ r name = .error e ∧ e.Transient := by
  constructor
  · intro h
    obtain ⟨before, name, hasked, -, hlast⟩ := hx.stopped e h
    exact ⟨name, by simp [hasked], hlast⟩
  · rintro ⟨name, hname, he, htransient⟩
    cases h : x.outcome with
    | ok a => exact absurd htransient (hx.settled a h name (List.mem_of_getLast? hname) e he)
    | error e' =>
      obtain ⟨before, last, hasked, -, he', -⟩ := hx.stopped e' h
      obtain rfl : last = name := by simpa [hasked] using hname
      obtain rfl : e' = e := Except.error.inj (he'.symm.trans he)
      rfl

end StopsAtFailure
end Lookup
end Dns
open Dns Lookup

variable {r : Resolver}

theorem Spf.stopsAtFailure_published (domain : String) : StopsAtFailure r (published r domain) :=
  (stopsAtFailure_resolveTxt domain).map _

theorem Spf.stopsAtFailure_walk (limit depth : Nat) (t : Tally) (ds : List Directive) :
    StopsAtFailure r (walk r limit depth t ds) := by
  fun_induction walk r limit depth t ds with
  | case1 | case2 | case5 => exact stopsAtFailure_pure _
  | case3 _ _ _ _ _ _ ih | case4 _ _ _ _ _ _ ih | case6 _ _ _ _ _ _ _ _ _ _ ih => exact ih
  | case7 depth t d ds ht domain hd t' ht' hdepth ihIncluded ihRest =>
    exact (stopsAtFailure_published domain).bind fun included _ =>
      (ihIncluded included).bind fun t _ => ihRest t

theorem Spf.stopsAtFailure_budget (domain : String) (limit : Nat) :
    StopsAtFailure r (budget r domain limit) := by
  refine (stopsAtFailure_published domain).bind fun found _ => ?_
  cases found with
  | none => exact stopsAtFailure_pure none
  | some record => exact (stopsAtFailure_walk limit 0 {} record.directives).map _

theorem Dkim.stopsAtFailure_verdict (domain selector : String) :
    StopsAtFailure r (verdict r domain selector) :=
  (stopsAtFailure_resolveTxt _).map _

theorem Dkim.stopsAtFailure_verdictOfAny (domain : String) (selectors : List String) :
    StopsAtFailure r (verdictOfAny r domain selectors) := by
  induction selectors with
  | nil => exact stopsAtFailure_pure _
  | cons selector selectors ih =>
    rw [verdictOfAny_cons]
    refine (stopsAtFailure_verdict domain selector).bind fun state _ => ?_
    split
    · exact stopsAtFailure_pure _
    · exact ih

theorem Dmarc.stopsAtFailure_published (domain : String) :
    StopsAtFailure r (published r domain) :=
  (stopsAtFailure_resolveTxt _).map _

/-- Every check that reads the answers it gets stops at a transient one. -/
theorem Checker.stopsAtFailure_run (c : Checker) {k : Check} (h : ∀ name, k ≠ .query name) :
    StopsAtFailure r (c.run r k) := by
  rw [run_eq_function]
  cases k with
  | query name => exact absurd rfl (h name)
  | resolve name => exact (stopsAtFailure_resolveTxt name).map _
  | spfRecord domain => exact (Spf.stopsAtFailure_published domain).map _
  | spfVerdict domain validations => exact ((Spf.stopsAtFailure_published domain).map _).map _
  | spfSender domain sender => exact ((Spf.stopsAtFailure_published domain).map _).map _
  | spfBudget domain limit => exact (Spf.stopsAtFailure_budget domain _).map _
  | spfStaysWithin domain limit => exact ((Spf.stopsAtFailure_budget domain _).map _).map _
  | dkimVerdict domain selector => exact (Dkim.stopsAtFailure_verdict domain selector).map _
  | dkimVerdictOfAny domain selectors =>
    exact (Dkim.stopsAtFailure_verdictOfAny domain selectors).map _
  | dmarcRecord domain => exact (Dmarc.stopsAtFailure_published domain).map _
  | dmarcVerdict domain => exact ((Dmarc.stopsAtFailure_published domain).map _).map _

/-- A check fails with a transient answer, just when that is the last one it got, and it asks for nothing
behind such an answer. That a name is not there is no failure of a check. -/
theorem Checker.outcome_run_eq_error_iff (c : Checker) (r : Resolver) {k : Check}
    (h : ∀ name, k ≠ .query name) :
    (∀ e, (c.run r k).outcome = .error e ↔
      ∃ name, (c.run r k).asked.getLast? = some name ∧ r name = .error e ∧ e.Transient) ∧
    (∀ before name after, (c.run r k).asked = before ++ name :: after →
      ∀ e, r name = .error e → e.Transient → after = []) ∧
    (∀ e, (c.run r k).outcome = .error e → e ≠ .nxDomain ∧ e ≠ .noRecords ∧ e ≠ .servFail) ∧
    ((∀ name ∈ (c.run r k).asked, Settled r name) → ∃ reply, (c.run r k).outcome = .ok reply) := by
  have hrun : StopsAtFailure r (c.run r k) := c.stopsAtFailure_run h
  refine ⟨fun e => hrun.outcome_eq_error_iff, fun before name after hasked e he htransient =>
    hrun.eq_nil_of_transient hasked he htransient, fun e he => ?_, fun hsettled => ?_⟩
  · obtain ⟨-, -, -, -, -, htransient⟩ := hrun.stopped e he
    cases htransient <;> simp
  · cases houtcome : (c.run r k).outcome with
    | ok reply => exact ⟨reply, rfl⟩
    | error e =>
      obtain ⟨before, name, hasked, -, he, htransient⟩ := hrun.stopped e houtcome
      exact absurd htransient (hsettled name (by simp [hasked]) e he)

/-- A chain of includes behind a name that cannot be looked up, with a refusal at its end. -/
def refusing : Zone :=
  (((Zone.empty.addTxt "a.example" ["v=spf1 include:gone.example include:b.example a -all"]).addTxt
    "b.example" ["v=spf1 include:c.example -all"]).addFailure "gone.example" .servFail).addFailure
    "c.example" (.other "refused")

theorem Checker.outcome_run_eq_error_iff_refusing :
    (∀ name, Check.spfBudget "a.example" none ≠ .query name) ∧
      ∃ name, (Checker.run {} refusing.answer (.spfBudget "a.example" none)).asked.getLast? =
          some name ∧
        refusing.answer name = .error (.other "refused") ∧ (Failure.other "refused").Transient := by
  have hcheck : ∀ name, Check.spfBudget "a.example" none ≠ .query name := nofun
  have hpublished : (Spf.published refusing.answer "a.example").outcome =
      .ok (some (Spf.Record.parse "v=spf1 include:gone.example include:b.example a -all")) := by
    rfl
  have houtcome : (Checker.run {} refusing.answer (.spfBudget "a.example" none)).outcome =
      .error (.other "refused") := by
    rw [run_eq_function, Check.function, Lookup.outcome_map, Spf.budget_eq_ledger hpublished]
    rfl
  exact ⟨hcheck, ((outcome_run_eq_error_iff {} refusing.answer hcheck).1 _).1 houtcome⟩

end SenderAuth
