import SenderAuth.Session

/-!
Resolvers that share a store. A resolver in memory is the place where its store is kept, and a copy of it is
the same place: what is done through one of them is done to the store of all.
-/
namespace SenderAuth
open Dns

structure Handle where
  place : Nat
  deriving DecidableEq

namespace Handle

def copy (h : Handle) : Handle := ⟨h.place⟩

/-- A resolver itself, and what is made from it by copying. -/
inductive CopyOf (h : Handle) : Handle → Prop
  | self : CopyOf h h
  | copy {k : Handle} (hk : CopyOf h k) : CopyOf h k.copy

theorem CopyOf.place_eq {h k : Handle} (hk : h.CopyOf k) : k.place = h.place := by
  induction hk with
  | self => rfl
  | copy _ ih => exact ih

end Handle

/-- A step, and the resolver that it is taken through: for what the checker does, its own. -/
structure Call where
  through : Handle
  step : Step
  deriving DecidableEq

/-- The stores of resolvers by their place, and a checker. -/
structure Memory where
  stores : Nat → Store
  checker : Checker

namespace Memory

def fresh : Memory := ⟨fun _ => {}, {}⟩

def session (m : Memory) (h : Handle) : Session := ⟨m.stores h.place, m.checker⟩

def perform (m : Memory) (call : Call) : Observation × Memory :=
  let (shown, after) := (m.session call.through).perform call.step
  let stores := fun place => if place = call.through.place then after.store else m.stores place
  (shown, ⟨stores, after.checker⟩)

def run (m : Memory) : List Call → List Observation
  | [] => []
  | call :: calls =>
    let (shown, after) := m.perform call
    shown :: after.run calls

def after (m : Memory) : List Call → Memory
  | [] => m
  | call :: calls => (m.perform call).2.after calls

variable {h k : Handle}

/-- Copies see the same. -/
theorem session_of_copyOf (m : Memory) (hk : h.CopyOf k) : m.session k = m.session h := by
  rw [session, session, hk.place_eq]

theorem shown_perform {call : Call} (m : Memory) (hcall : h.CopyOf call.through) :
    (m.perform call).1 = ((m.session h).perform call.step).1 := by
  rw [← m.session_of_copyOf hcall]
  rfl

theorem session_perform {call : Call} (m : Memory) (hcall : h.CopyOf call.through) :
    (m.perform call).2.session h = ((m.session h).perform call.step).2 := by
  rw [← m.session_of_copyOf hcall, ← session_of_copyOf _ hcall]
  simp only [perform, session, ↓reduceIte]

variable {calls : List Call}

/-- Calls through copies of one resolver show what the steps show in the session of the resolver. -/
theorem run_eq (m : Memory) (hcalls : ∀ call ∈ calls, h.CopyOf call.through) :
    m.run calls = (m.session h).run (calls.map Call.step) := by
  induction calls generalizing m with
  | nil => rfl
  | cons call calls ih =>
    obtain ⟨hcall, hcalls⟩ := List.forall_mem_cons.1 hcalls
    rw [run, List.map_cons, Session.run_cons]
    dsimp only
    rw [ih _ hcalls, m.session_perform hcall, m.shown_perform hcall]

theorem session_after (m : Memory) (hcalls : ∀ call ∈ calls, h.CopyOf call.through) :
    (m.after calls).session h = (m.session h).after (calls.map Call.step) := by
  induction calls generalizing m with
  | nil => rfl
  | cons call calls ih =>
    obtain ⟨hcall, hcalls⟩ := List.forall_mem_cons.1 hcalls
    rw [after, List.map_cons, Session.after_cons, ih _ hcalls, m.session_perform hcall]

end Memory
end SenderAuth
