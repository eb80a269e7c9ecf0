import SenderAuth.Dns.Lookup
import SenderAuth.Dns.Store

/-!
Work as a dialog with a resolver. Each answer decides which name is asked for next or what the outcome is,
and nothing but the answers does. A dialog can be held with a resolver that is only a table of answers, and
with one in memory that takes note of each question.
-/
namespace SenderAuth.Dns
open Text

inductive Dialog (α : Type)
  | done (outcome : Except Failure α)
  | ask (name : String) (next : Except Failure (List String) → Dialog α)

namespace Dialog
variable {α β : Type}

def readOff (r : Resolver) : Dialog α → Lookup α
  | done outcome => ⟨[], outcome⟩
  | ask name next =>
    let rest := (next (r name)).readOff r
    ⟨name :: rest.asked, rest.outcome⟩

/-- The dialog with a store, which each question changes. -/
def hold : Dialog α → Store → Except Failure α × Store
  | done outcome, s => (outcome, s)
  | ask name next, s =>
    let (answer, s) := s.ask name
    (next answer).hold s

/-- All that a dialog does to a store is to have its questions noted, and it gets the answers that the
zone had at the beginning. -/
theorem hold_eq (d : Dialog α) (s : Store) :
    d.hold s = ((d.readOff s.zone.answer).outcome,
      s.record ((d.readOff s.zone.answer).asked.map lower)) := by
  induction d generalizing s with
  | done outcome => simp [hold, readOff]
  | ask name next ih =>
    rw [hold, Store.ask_eq]
    dsimp only
    rw [ih, Store.zone_record, Store.record_record]
    rfl

def bind : Dialog α → (α → Dialog β) → Dialog β
  | done (.ok a), f => f a
  | done (.error e), _ => done (.error e)
  | ask name next, f => ask name fun answer => (next answer).bind f

theorem readOff_bind (d : Dialog α) (f : α → Dialog β) (r : Resolver) :
    (d.bind f).readOff r = d.readOff r >>= fun a => (f a).readOff r := by
  induction d with
  | done outcome =>
    cases outcome with
    | ok a => exact (pure_bind a fun a => (f a).readOff r).symm
    | error e => rfl
  | ask name next ih =>
    rw [bind, readOff, ih, readOff, Lookup.bind_cons]

end Dialog

/-- Work that is a dialog: what it asks for and what comes out of it, with any resolver, is decided by
the answers alone. -/
def IsDialog {α : Type} (work : Resolver → Lookup α) : Prop :=
  ∃ d : Dialog α, ∀ r, d.readOff r = work r

namespace IsDialog
variable {α β : Type}

theorem pure (a : α) : IsDialog fun _ => (Pure.pure a : Lookup α) := ⟨.done (.ok a), fun _ => rfl⟩

theorem query (name : String) : IsDialog fun r => Dns.query r name := ⟨.ask name .done, fun _ => rfl⟩

theorem resolveTxt (name : String) : IsDialog fun r => Dns.resolveTxt r name :=
  ⟨.ask name fun answer => .done (TxtLookup.ofAnswer answer), fun _ => rfl⟩

theorem bind {f : Resolver → Lookup α} {g : α → Resolver → Lookup β} (hf : IsDialog f)
    (hg : ∀ a, IsDialog (g a)) : IsDialog fun r => f r >>= fun a => g a r := by
  obtain ⟨d, hd⟩ := hf
  refine ⟨d.bind fun a => (hg a).choose, fun r => ?_⟩
  rw [Dialog.readOff_bind, hd]
  exact congrArg _ (funext fun a => (hg a).choose_spec r)

theorem map {f : Resolver → Lookup α} (hf : IsDialog f) (g : α → β) : IsDialog fun r => g <$> f r := by
  simp only [← bind_pure_comp]
  exact hf.bind fun a => IsDialog.pure (g a)

end IsDialog
end SenderAuth.Dns
