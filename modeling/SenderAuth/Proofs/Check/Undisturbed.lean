import SenderAuth.Copies
import SenderAuth.History
import SenderAuth.Proofs.Budget.Reading
import SenderAuth.Proofs.Check.Dialog

/-!
The checks of one session do not disturb each other. What a check shows is decided by the changes of the zone
before it and by what was configured last, and a check leaves nothing behind but the names in the log.
-/
namespace SenderAuth
open Dns

namespace Session

/-- What carrying out a check does is to hold its dialog with the store. -/
theorem exists_dialog_perform (s : Session) (k : Check) :
    ∃ d : Dialog Reply, (∀ r, d.readOff r = s.checker.run r k) ∧
      d.hold s.store = ((s.perform (.check k)).1.reply, (s.perform (.check k)).2.store) := by
  obtain ⟨d, hd⟩ := s.checker.isDialog_run k
  refine ⟨d, hd, ?_⟩
  rw [Dialog.hold_eq, hd]
  rfl

/-- A check that leaves the session before it as it is, but for its own questions in the log, and shows what
the function that it belongs to says when it is called with the zone, and the limit and the validations, of
the history of the session. -/
structure Undisturbed (history : List Step) (k : Check) (before : Session) (shown : Observation)
    (after : Session) : Prop where
  zone : after.store.zone = before.store.zone
  checker : after.checker = before.checker
  log : after.store.log = before.store.log ++ shown.asked
  count : after.store.count = before.store.count + shown.asked.length
  reply : shown.reply =
    (k.function (limitOf history) (validationsOf history) (zoneOf history).answer).outcome
  asked : shown.asked =
    (k.function (limitOf history) (validationsOf history) (zoneOf history).answer).asked.map Text.lower
  dialog : ∃ d : Dialog Reply, (∀ r, d.readOff r = before.checker.run r k) ∧
    d.hold before.store = (shown.reply, after.store)

theorem work_check_after (history : List Step) (k : Check) :
    (after {} history).work (.check k) =
      k.function (limitOf history) (validationsOf history) (zoneOf history).answer := by
  rw [work, zone_after_fresh, checker_after_fresh, Checker.run_eq_function]

theorem undisturbed_perform (history : List Step) (k : Check) :
    Undisturbed history k (after {} history) ((after {} history).perform (.check k)).1
      ((after {} history).perform (.check k)).2 where
  zone := zone_perform _ (.check k)
  checker := checker_perform _ (.check k)
  log := log_perform _ (.check k)
  count := rfl
  reply := congrArg Lookup.outcome (work_check_after history k)
  asked := congrArg (fun done => done.asked.map Text.lower) (work_check_after history k)
  dialog := exists_dialog_perform _ k

end Session

namespace Session.Undisturbed
variable {xs ys : List Step} {k : Check} {before before' after after' : Session}
  {shown shown' : Observation}

/-- A check shows the same after histories that are the same to it. -/
theorem shown_eq (h : Undisturbed xs k before shown after) (h' : Undisturbed ys k before' shown' after')
    (hsame : SameTo k xs ys) : shown'.reply = shown.reply ∧ shown'.asked = shown.asked := by
  have hzone : zoneOf xs = zoneOf ys := by rw [zoneOf, hsame.zone, zoneOf]
  have hfunction (r : Resolver) : k.function (limitOf xs) (validationsOf xs) r =
      k.function (limitOf ys) (validationsOf ys) r := by
    rw [← k.function_given _ 0 _ {}, hsame.given, k.function_given]
  rw [h.reply, h'.reply, h.asked, h'.asked, hzone, hfunction]
  exact ⟨rfl, rfl⟩

end Session.Undisturbed

def stepsBefore (calls : List Call) (i : Nat) : List Step := (calls.take i).map Call.step

namespace Memory
variable {resolver through : Handle} {calls : List Call} {i : Nat} {k : Check}

theorem session_after_fresh (hcopies : ∀ call ∈ calls, resolver.CopyOf call.through) (i : Nat) :
    (fresh.after (calls.take i)).session resolver = Session.after {} (stepsBefore calls i) :=
  fresh.session_after fun call hcall => hcopies call (List.mem_of_mem_take hcall)

theorem exists_undisturbed (hcopies : ∀ call ∈ calls, resolver.CopyOf call.through)
    (hcheck : calls[i]? = some ⟨through, .check k⟩) :
    ∃ shown, (fresh.run calls)[i]? = some shown ∧
      Session.Undisturbed (stepsBefore calls i) k ((fresh.after (calls.take i)).session resolver) shown
        ((fresh.after (calls.take (i + 1))).session resolver) := by
  have hnext : stepsBefore calls (i + 1) = stepsBefore calls i ++ [.check k] := by
    rw [stepsBefore, List.take_add_one, hcheck, List.map_append]
    rfl
  have hshown : (fresh.run calls)[i]? =
      some ((Session.after {} (stepsBefore calls i)).perform (.check k)).1 := by
    rw [fresh.run_eq hcopies, Session.getElem?_run, List.getElem?_map, hcheck, ← List.map_take]
    rfl
  refine ⟨_, hshown, ?_⟩
  rw [session_after_fresh hcopies, session_after_fresh hcopies, hnext, Session.after_concat]
  exact Session.undisturbed_perform _ k

end Memory

/-- Whatever is done with a resolver through its copies, each of them has counted as many questions as are in
the log. Each check on the way leaves all else as it finds it and shows what its function says of the zone
and the policy so far, and it shows the same in every other course of things that is the same to it. Courses
that differ in their checks alone are. -/
theorem checks_undisturbed {resolver : Handle} {calls : List Call}
    (hcopies : ∀ call ∈ calls, resolver.CopyOf call.through) :
    (∀ h, resolver.CopyOf h → ((Memory.fresh.after calls).session h).store.count =
      ((Memory.fresh.after calls).session h).store.log.length) ∧
    (∀ i through k, calls[i]? = some ⟨through, .check k⟩ →
      ∃ shown, (Memory.fresh.run calls)[i]? = some shown ∧
        Session.Undisturbed (stepsBefore calls i) k
          ((Memory.fresh.after (calls.take i)).session resolver) shown
          ((Memory.fresh.after (calls.take (i + 1))).session resolver) ∧
        ∀ (others : List Call) (j : Nat) (through' : Handle),
          (∀ call ∈ others, resolver.CopyOf call.through) →
          others[j]? = some ⟨through', .check k⟩ →
          SameTo k (stepsBefore calls i) (stepsBefore others j) →
          ∃ shown', (Memory.fresh.run others)[j]? = some shown' ∧
            shown'.reply = shown.reply ∧ shown'.asked = shown.asked) ∧
    ∀ xs ys : List Step, xs.filter Step.changes = ys.filter Step.changes → ∀ k, SameTo k xs ys := by
  refine ⟨fun h hh => ?_, fun i through k hcheck => ?_, fun xs ys => sameTo_of_changes⟩
  · rw [Memory.session_of_copyOf _ hh, Memory.session_after _ hcopies]
    exact Session.count_eq_after rfl _
  · obtain ⟨shown, hshown, hundisturbed⟩ := Memory.exists_undisturbed hcopies hcheck
    refine ⟨shown, hshown, hundisturbed, fun others j through' hothers hcheck' hsame => ?_⟩
    obtain ⟨shown', hshown', hundisturbed'⟩ := Memory.exists_undisturbed hothers hcheck'
    exact ⟨shown', hshown', hundisturbed.shown_eq hundisturbed' hsame⟩

/-- A resolver and copies of it, through which a record is stored and checked with a limit of zero, with
other checks in between. -/
def busyCourse : List Call :=
  let resolver : Handle := ⟨0⟩
  [⟨resolver, .addTxt "a.example" ["v=spf1 include:b.example -all"]⟩,
    ⟨resolver.copy, .check (.spfBudget "a.example" none)⟩,
    ⟨resolver.copy, .configure (some 0) none⟩,
    ⟨resolver, .check (.dmarcVerdict "a.example" .method)⟩,
    ⟨resolver.copy.copy, .check (.spfStaysWithin "A.example" none)⟩]

/-- The same without the other checks, and without copies. -/
def quietCourse : List Call :=
  let resolver : Handle := ⟨0⟩
  [⟨resolver, .addTxt "a.example" ["v=spf1 include:b.example -all"]⟩,
    ⟨resolver, .configure (some 0) none⟩,
    ⟨resolver, .check (.spfStaysWithin "A.example" none)⟩]

theorem copyOf_busyCourse : ∀ call ∈ busyCourse, (⟨0⟩ : Handle).CopyOf call.through := by
  simp only [busyCourse, List.forall_mem_cons, List.not_mem_nil, false_implies, implies_true, and_true]
  exact ⟨.self, .copy .self, .copy .self, .self, .copy (.copy .self)⟩

theorem copyOf_quietCourse : ∀ call ∈ quietCourse, (⟨0⟩ : Handle).CopyOf call.through := by
  simp only [quietCourse, List.forall_mem_cons, List.not_mem_nil, false_implies, implies_true, and_true]
  exact ⟨.self, .self, .self⟩

theorem staysWithin_busyCourse :
    Spf.staysWithin (zoneOf (stepsBefore busyCourse 4)).answer "A.example" 0 =
      ⟨["A.example"], .ok false⟩ := by
  have hpublished : (Spf.published (zoneOf (stepsBefore busyCourse 4)).answer "A.example").outcome =
      .ok (some (Spf.Record.parse "v=spf1 include:b.example -all")) := rfl
  rw [Spf.staysWithin, Spf.budget_eq_ledger hpublished]
  rfl

theorem checks_undisturbed_busyCourse :
    (∀ call ∈ busyCourse, (⟨0⟩ : Handle).CopyOf call.through) ∧
      ∃ busy quiet, (Memory.fresh.run busyCourse)[4]? = some busy ∧
        (Memory.fresh.run quietCourse)[2]? = some quiet ∧
        quiet.reply = busy.reply ∧ quiet.asked = busy.asked ∧
        busy.reply = .ok (.holds false) ∧ busy.asked = ["a.example"] := by
  obtain ⟨-, hshown, hsame⟩ := checks_undisturbed copyOf_busyCourse
  obtain ⟨busy, hbusy, hundisturbed, hothers⟩ :=
    hshown 4 (⟨0⟩ : Handle).copy.copy (.spfStaysWithin "A.example" none) rfl
  have hchanges : (stepsBefore busyCourse 4).filter Step.changes =
      (stepsBefore quietCourse 2).filter Step.changes := rfl
  obtain ⟨quiet, hquiet, hreply, hasked⟩ :=
    hothers quietCourse 2 ⟨0⟩ copyOf_quietCourse rfl (hsame _ _ hchanges _)
  have hlimit : limitOf (stepsBefore busyCourse 4) = 0 := rfl
  refine ⟨copyOf_busyCourse, busy, quiet, hbusy, hquiet, hreply, hasked, ?_, ?_⟩
  · rw [hundisturbed.reply, Check.function, hlimit, Option.getD_none, staysWithin_busyCourse]
    rfl
  · rw [hundisturbed.asked, Check.function, hlimit, Option.getD_none, staysWithin_busyCourse]
    rfl

end SenderAuth
