import SenderAuth.History
import SenderAuth.Pool

/-!
What resolvers answer after any operations with them. All that are at hand are copies of the first one, so
that all of them see the one session that the steps so far lead to.
-/
namespace SenderAuth
open Dns Text

namespace Session

/-- A question by itself is answered as the steps before it say. -/
theorem reply_query (steps : List Step) (name : String) :
    ((after {} steps).perform (.check (.query name))).1.reply = (answerOf steps name).map .strings := by
  rw [← answer_zoneOf, ← zone_after_fresh]
  rfl

end Session

theorem Operation.asked_perform {o : Operation} {step : Step} (h : o.step? = some step) (s : Session) :
    (s.perform step).1.asked = step.query?.toList.map lower := by
  cases o with
  | copy => cases h
  | addTxt | addFailure | setNxDomain | withTxt | withFailure | query =>
    obtain rfl := Option.some.inj h
    rfl

theorem stepsOf_cons (u : Use) (uses : List Use) :
    stepsOf (u :: uses) = u.operation.step?.toList ++ stepsOf uses := by
  cases h : u.operation.step? with
  | none => exact List.filterMap_cons_none h
  | some step => exact List.filterMap_cons_some h

/-- The log grows by the names of the questions, in lower case. -/
theorem log_after_stepsOf (s : Session) (uses : List Use) :
    (s.after (stepsOf uses)).store.log =
      s.store.log ++ ((stepsOf uses).filterMap Step.query?).map lower := by
  induction uses generalizing s with
  | nil => exact (List.append_nil _).symm
  | cons u uses ih =>
    rw [stepsOf_cons]
    cases h : u.operation.step? with
    | none => exact ih s
    | some step =>
      have hlog : (s.perform step).2.store.log = s.store.log ++ step.query?.toList.map lower := by
        rw [s.log_perform, Operation.asked_perform h]
      show ((s.perform step).2.after (stepsOf uses)).store.log =
        s.store.log ++ ((step :: stepsOf uses).filterMap Step.query?).map lower
      rw [ih, hlog]
      cases hquery : step.query? with
      | none => simp [hquery]
      | some name => simp [hquery]

def Operation.shownAfter (steps : List Step) (o : Operation) : Option Observation :=
  o.step?.map fun step => ((Session.after {} steps).perform step).1

namespace Pool

variable {p : Pool} {resolver : Handle} {steps : List Step}

/-- A pool after some steps: all that are at hand are copies of one resolver, which sees the session that the
steps lead to. -/
structure Follows (p : Pool) (resolver : Handle) (steps : List Step) : Prop where
  copies : ∀ h ∈ p.hands, resolver.CopyOf h
  session : p.memory.session resolver = Session.after {} steps

theorem fresh_follows : fresh.Follows ⟨0⟩ [] where
  copies h hmem := by
    obtain rfl := List.mem_singleton.1 hmem
    exact .self
  session := rfl

theorem Follows.session_of_mem {h : Handle} (hp : p.Follows resolver steps) (hmem : h ∈ p.hands) :
    p.memory.session h = Session.after {} steps := by
  rw [p.memory.session_of_copyOf (hp.copies h hmem), hp.session]

/-- An operation with a resolver at hand is carried out, and shows what its step shows after the steps
so far. -/
theorem Follows.use {u : Use} (hp : p.Follows resolver steps) (hu : u.number < p.hands.length) :
    ∃ next, p.use u = some (u.operation.shownAfter steps, next) ∧
      next.Follows resolver (steps ++ u.operation.step?.toList) ∧
      next.hands.length = p.hands.length + u.operation.yield := by
  have hget : p.hands[u.number]? = some p.hands[u.number] := List.getElem?_eq_getElem hu
  have hthrough : resolver.CopyOf p.hands[u.number] := hp.copies _ (List.getElem_mem hu)
  have hcopies : ∀ h ∈ p.hands ++ u.operation.handsOut p.hands[u.number], resolver.CopyOf h := by
    intro h hmem
    rcases List.mem_append.1 hmem with hmem | hmem
    · exact hp.copies h hmem
    · exact Operation.copyOf_of_mem_handsOut hthrough hmem
  have hlength : (p.hands ++ u.operation.handsOut p.hands[u.number]).length =
      p.hands.length + u.operation.yield := by
    rw [List.length_append, Operation.length_handsOut]
  cases hstep : u.operation.step? with
  | none =>
    refine ⟨⟨_, p.memory⟩, ?_, ⟨hcopies, ?_⟩, hlength⟩
    · simp only [Pool.use, hget, hstep, Operation.shownAfter, Option.map_none]
    · show p.memory.session resolver = Session.after {} (steps ++ [])
      rw [List.append_nil, hp.session]
  | some step =>
    refine ⟨⟨_, (p.memory.perform ⟨p.hands[u.number], step⟩).2⟩, ?_, ⟨hcopies, ?_⟩, hlength⟩
    · simp only [Pool.use, hget, hstep, Operation.shownAfter, Option.map_some]
      rw [p.memory.shown_perform hthrough, hp.session]
    · show (p.memory.perform ⟨p.hands[u.number], step⟩).2.session resolver = Session.after {} (steps ++ [step])
      rw [p.memory.session_perform hthrough, hp.session, Session.after_concat]

/-- All operations are carried out, and each shows what its step shows after the steps in front of it. -/
theorem Follows.run {uses : List Use} (hp : p.Follows resolver steps) (huses : InHand p.hands.length uses) :
    ∃ shown last, p.run uses = some (shown, last) ∧
      (∀ i : Nat, shown[i]? =
        uses[i]?.map fun u => u.operation.shownAfter (steps ++ stepsOf (uses.take i))) ∧
      last.Follows resolver (steps ++ stepsOf uses) := by
  induction uses generalizing p steps with
  | nil =>
    refine ⟨[], p, rfl, fun _ => rfl, ?_⟩
    show p.Follows resolver (steps ++ [])
    rw [List.append_nil]
    exact hp
  | cons u uses ih =>
    obtain ⟨hu, huses⟩ := huses
    obtain ⟨next, hnext, hfollows, hlength⟩ := hp.use hu
    rw [← hlength] at huses
    obtain ⟨shown, last, hrun, hshown, hlast⟩ := ih hfollows huses
    refine ⟨u.operation.shownAfter steps :: shown, last, ?_, ?_, ?_⟩
    · rw [Pool.run, hnext]
      dsimp only
      rw [hrun, Option.map_some]
    · intro i
      cases i with
      | zero => simp [stepsOf]
      | succ i =>
        rw [List.getElem?_cons_succ, List.getElem?_cons_succ, List.take_succ_cons, stepsOf_cons,
          ← List.append_assoc]
        exact hshown i
    · rw [stepsOf_cons, ← List.append_assoc]
      exact hlast

/-- A resolver in memory answers as the operations so far say, through whichever resolver at hand they were
carried out and the question is asked: at each question on the way, and at each one after all. Its log then
has the names of all questions in lower case. -/
theorem answers_of_history {uses : List Use} (huses : InHand 1 uses) :
    ∃ shown last, fresh.run uses = some (shown, last) ∧
      (∀ i number name, uses[i]? = some ⟨number, .query name⟩ →
        ∃ o, shown[i]? = some (some o) ∧
          o.reply = (answerOf (stepsOf (uses.take i)) name).map .strings) ∧
      ∀ h ∈ last.hands,
        (∀ name, ((last.memory.session h).perform (.check (.query name))).1.reply =
          (answerOf (stepsOf uses) name).map .strings) ∧
        (last.memory.session h).store.log = ((stepsOf uses).filterMap Step.query?).map lower := by
  obtain ⟨shown, last, hrun, hshown, hlast⟩ := fresh_follows.run huses
  refine ⟨shown, last, hrun, ?_, ?_⟩
  · intro i number name hquery
    refine ⟨_, ?_, Session.reply_query (stepsOf (uses.take i)) name⟩
    rw [hshown i, hquery]
    rfl
  · intro h hmem
    rw [hlast.session_of_mem hmem]
    refine ⟨Session.reply_query (stepsOf uses), ?_⟩
    exact log_after_stepsOf {} uses

/-- Names in several spellings, stored and asked for through a resolver and through two more of it. -/
def mixedUses : List Use :=
  [⟨0, .addTxt "A.example" ["x"]⟩, ⟨0, .copy⟩, ⟨1, .query "a.EXAMPLE"⟩, ⟨1, .withTxt "a.Example" ["y"]⟩,
    ⟨2, .addFailure "b.example" .timeout⟩, ⟨0, .query "A.example"⟩, ⟨2, .setNxDomain "A.EXAMPLE"⟩,
    ⟨0, .addTxt "a.example" ["z"]⟩, ⟨2, .query "a.example"⟩]

theorem answers_of_history_mixedUses :
    InHand 1 mixedUses ∧
      ∃ shown last, fresh.run mixedUses = some (shown, last) ∧
        (∃ o, shown[2]? = some (some o) ∧ o.reply = .ok (.strings ["x"])) ∧
        (∃ o, shown[5]? = some (some o) ∧ o.reply = .ok (.strings ["y"])) ∧
        (∃ o, shown[8]? = some (some o) ∧ o.reply = .error .nxDomain) ∧
        ∀ h ∈ last.hands, (last.memory.session h).store.log = ["a.example", "a.example", "a.example"] := by
  have huses : InHand 1 mixedUses := by
    simp [InHand, mixedUses, Operation.yield]
  obtain ⟨shown, last, hrun, hshown, hlast⟩ := answers_of_history huses
  obtain ⟨first, hfirst, hx⟩ := hshown 2 1 "a.EXAMPLE" rfl
  obtain ⟨second, hsecond, hy⟩ := hshown 5 0 "A.example" rfl
  obtain ⟨third, hthird, hnxDomain⟩ := hshown 8 2 "a.example" rfl
  refine ⟨huses, shown, last, hrun, ⟨first, hfirst, hx⟩, ⟨second, hsecond, hy⟩,
    ⟨third, hthird, hnxDomain⟩, ?_⟩
  intro h hmem
  exact (hlast h hmem).2

end Pool
end SenderAuth
