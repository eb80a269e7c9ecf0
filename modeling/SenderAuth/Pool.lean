import SenderAuth.Copies

/-!
Resolvers in memory by themselves. There is one at first, and what is done is done through one of those at hand:
names are stored and asked for, and more resolvers are put at hand, which all share what is stored.
-/
namespace SenderAuth
open Dns

/-- What can be done with a resolver in memory. Those that build a zone hand the resolver back, which is then
at hand under a number of its own. -/
inductive Operation
  | addTxt (name : String) (records : List String)
  | addFailure (name : String) (e : Failure)
  | setNxDomain (name : String)
  | withTxt (name : String) (records : List String)
  | withFailure (name : String) (e : Failure)
  | copy
  | query (name : String)
  deriving DecidableEq

namespace Operation

/-- The step that is taken through the resolver. To copy it takes none. -/
def step? : Operation → Option Step
  | addTxt name records | withTxt name records => some (.addTxt name records)
  | addFailure name e | withFailure name e => some (.addFailure name e)
  | setNxDomain name => some (.setNxDomain name)
  | query name => some (.check (.query name))
  | copy => none

/-- The resolvers that are put at hand. -/
def handsOut (h : Handle) : Operation → List Handle
  | withTxt .. | withFailure .. => [h]
  | copy => [h.copy]
  | addTxt .. | addFailure .. | setNxDomain _ | query _ => []

def yield : Operation → Nat
  | withTxt .. | withFailure .. | copy => 1
  | addTxt .. | addFailure .. | setNxDomain _ | query _ => 0

@[simp] theorem length_handsOut (h : Handle) (o : Operation) : (o.handsOut h).length = o.yield := by
  cases o <;> rfl

theorem copyOf_of_mem_handsOut {resolver h k : Handle} {o : Operation} (hh : resolver.CopyOf h)
    (hk : k ∈ o.handsOut h) : resolver.CopyOf k := by
  cases o with
  | withTxt | withFailure =>
    obtain rfl := List.mem_singleton.1 hk
    exact hh
  | copy =>
    obtain rfl := List.mem_singleton.1 hk
    exact .copy hh
  | addTxt | addFailure | setNxDomain | query => cases hk

end Operation

/-- An operation, and the number that its resolver has among those at hand. -/
structure Use where
  number : Nat
  operation : Operation
  deriving DecidableEq

/-- Each operation is carried out with a resolver that is at hand by then, where so many are at first. -/
def InHand (n : Nat) : List Use → Prop
  | [] => True
  | u :: uses => u.number < n ∧ InHand (n + u.operation.yield) uses

def stepsOf (uses : List Use) : List Step := uses.filterMap fun u => u.operation.step?

structure Pool where
  /-- the resolvers at hand, the first one in front -/
  hands : List Handle
  memory : Memory

namespace Pool

def fresh : Pool := ⟨[⟨0⟩], Memory.fresh⟩

/-- What the step of an operation shows, and the pool after it. There is none when no resolver at hand has
the number. -/
def use (p : Pool) (u : Use) : Option (Option Observation × Pool) :=
  match p.hands[u.number]? with
  | none => none
  | some h =>
    let hands := p.hands ++ u.operation.handsOut h
    match u.operation.step? with
    | none => some (none, ⟨hands, p.memory⟩)
    | some step =>
      let (shown, memory) := p.memory.perform ⟨h, step⟩
      some (some shown, ⟨hands, memory⟩)

def run (p : Pool) : List Use → Option (List (Option Observation) × Pool)
  | [] => some ([], p)
  | u :: uses =>
    match p.use u with
    | none => none
    | some (shown, next) => (next.run uses).map fun (all, last) => (shown :: all, last)

end Pool
end SenderAuth
