import Mathlib.Logic.Relation
import SenderAuth.Spf.Budget

/-!
The walk over included records, taken step by step. A walk holds the records that it is in the middle of,
the innermost first, and each step reads a directive, comes to the end of a record or follows an include.
The steps can be taken with a look at how deep an include lies, as the walk takes them, or without.
-/
namespace SenderAuth.Spf
open Dns

/-- A record in the middle of which a walk is: how many includes it lies below the root, and those of its
directives that are still to come. -/
structure Reading where
  depth : Nat
  rest : List Directive

structure WalkState where
  /-- the records that are being read, the innermost first -/
  readings : List Reading
  /-- the target of an include that was counted in the last step -/
  target : Option String
  tally : Tally

namespace WalkState

def start (ds : List Directive) : WalkState := ⟨[⟨0, ds⟩], none, {}⟩

/-- Where a walk stands when the target of an include is looked up. -/
def enter (reading : Reading) (outer : List Reading) (t : Tally) : Option Record → WalkState
  | none => ⟨reading :: outer, none, t⟩
  | some record => ⟨⟨reading.depth + 1, record.directives⟩ :: reading :: outer, none, t⟩

/-- The next step, as long as there is something to read. Only a guarded step passes over an include for
the depth that it lies at. -/
def step (r : Resolver) (limit : Nat) (guarded : Bool) : WalkState → Option (Lookup WalkState)
  | ⟨[], _, _⟩ => none
  | ⟨reading :: outer, some domain, t⟩ => some <|
    if limit < t.total then pure ⟨outer, none, t⟩
    else if guarded = true ∧ limit ≤ reading.depth then pure ⟨reading :: outer, none, t⟩
    else enter reading outer t <$> published r domain
  | ⟨⟨_, []⟩ :: outer, none, t⟩ => some (pure ⟨outer, none, t⟩)
  | ⟨⟨depth, d :: ds⟩ :: outer, none, t⟩ => some <|
    if limit < t.total then pure ⟨outer, none, t⟩
    else match d.counted? with
      | none => pure ⟨⟨depth, ds⟩ :: outer, none, t⟩
      | some .address => pure ⟨⟨depth, ds⟩ :: outer, none, t.countAddress⟩
      | some (.includes domain) => pure ⟨⟨depth, ds⟩ :: outer, some domain, t.countInclude⟩

theorem step_includes {limit : Nat} {t : Tally} {d : Directive} {domain : String}
    (ht : ¬ limit < t.total) (hd : d.counted? = some (.includes domain)) (r : Resolver) (guarded : Bool)
    (depth : Nat) (ds : List Directive) (outer : List Reading) :
    step r limit guarded ⟨⟨depth, d :: ds⟩ :: outer, none, t⟩ =
      some (pure ⟨⟨depth, ds⟩ :: outer, some domain, t.countInclude⟩) := by
  simp [step, ht, hd]

/-- One state comes right after the other. -/
def Leads (r : Resolver) (limit : Nat) (guarded : Bool) (s s' : WalkState) : Prop :=
  ∃ x, s.step r limit guarded = some x ∧ x.outcome = .ok s'

/-- The states that a walk over these directives goes through. -/
def Reached (r : Resolver) (limit : Nat) (guarded : Bool) (ds : List Directive) (s : WalkState) : Prop :=
  Relation.ReflTransGen (Leads r limit guarded) (start ds) s

/-- What comes out of the steps from a state on, when they come to an end. -/
inductive RunsTo (r : Resolver) (limit : Nat) (guarded : Bool) : WalkState → Lookup Tally → Prop
  | done {s : WalkState} (h : s.step r limit guarded = none) : RunsTo r limit guarded s (pure s.tally)
  | fail {s : WalkState} {x : Lookup WalkState} {e : Failure} (h : s.step r limit guarded = some x)
      (he : x.outcome = .error e) : RunsTo r limit guarded s ⟨x.asked, .error e⟩
  | next {s s' : WalkState} {x : Lookup WalkState} {y : Lookup Tally}
      (h : s.step r limit guarded = some x) (hok : x.outcome = .ok s')
      (hrest : RunsTo r limit guarded s' y) : RunsTo r limit guarded s ⟨x.asked ++ y.asked, y.outcome⟩

end WalkState
end SenderAuth.Spf
