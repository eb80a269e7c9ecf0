import SenderAuth.Spf.Budget

/-!
The walk over included records as one list. A ledger holds the terms that are still to come, those of an
included record in front of what stood behind its include, and writes down one after the other until its
room is used up. It knows neither depth nor counters, and the walk counts exactly what it writes down.
-/
namespace SenderAuth.Spf
open Dns

def Counted.target? : Counted → Option String
  | .address => none
  | .includes domain => some domain

namespace Tally

def add (t : Tally) : Counted → Tally
  | .address => t.countAddress
  | .includes _ => t.countInclude

def count (t : Tally) (terms : List Counted) : Tally := terms.foldl add t

@[simp] theorem count_nil (t : Tally) : t.count [] = t := rfl

@[simp] theorem count_cons (t : Tally) (c : Counted) (terms : List Counted) :
    t.count (c :: terms) = (t.add c).count terms := rfl

theorem count_append (t : Tally) (xs ys : List Counted) :
    t.count (xs ++ ys) = (t.count xs).count ys := by
  simp [count]

@[simp] theorem total_add (t : Tally) (c : Counted) : (t.add c).total = t.total + 1 := by
  cases c <;> simp [add]

@[simp] theorem total_count (t : Tally) (terms : List Counted) :
    (t.count terms).total = t.total + terms.length := by
  induction terms generalizing t with
  | nil => rfl
  | cons c terms ih => simp only [count_cons, ih, total_add, List.length_cons]; omega

theorem includes_count (t : Tally) (terms : List Counted) :
    (t.count terms).includes = t.includes + (terms.filterMap Counted.target?).length := by
  induction terms generalizing t with
  | nil => rfl
  | cons c terms ih =>
    rw [count_cons, ih]
    cases c with
    | address => simp [add, countAddress, List.filterMap_cons, Counted.target?]
    | includes domain => simp [add, countInclude, Counted.target?]; omega

theorem addresses_count (t : Tally) (terms : List Counted) :
    (t.count terms).addresses = t.addresses + terms.count .address := by
  induction terms generalizing t with
  | nil => rfl
  | cons c terms ih =>
    rw [count_cons, ih]
    cases c with
    | address => simp [add, countAddress]; omega
    | includes domain => simp [add, countInclude]

end Tally

@[simp] theorem Report.total_ofTally (limit : Nat) (terms : List Counted) :
    (Report.ofTally limit (Tally.count {} terms)).total = terms.length :=
  (Tally.total_count {} terms).trans (Nat.zero_add _)

theorem Report.withinLimit_ofTally (limit : Nat) (terms : List Counted) :
    (Report.ofTally limit (Tally.count {} terms)).withinLimit = true ↔ terms.length ≤ limit := by
  rw [← Report.total_ofTally limit, Report.ofTally, decide_eq_true_iff]
  rfl

@[simp] theorem countedTerms_nil : countedTerms [] = [] := rfl

theorem countedTerms_cons_of_none {d : Directive} (h : d.counted? = none) (ds : List Directive) :
    countedTerms (d :: ds) = countedTerms ds := by
  simp [countedTerms, h]

theorem countedTerms_cons_of_some {d : Directive} {c : Counted} (h : d.counted? = some c)
    (ds : List Directive) : countedTerms (d :: ds) = c :: countedTerms ds := by
  simp [countedTerms, h]

/-- Writes down the terms to come, in order, until `room` of them are written. The last one that there is
room for is not followed. -/
def ledger (r : Resolver) : (room : Nat) → List Counted → Lookup (List Counted)
  | 0, _ => pure []
  | _ + 1, [] => pure []
  | room + 1, .address :: rest => (.address :: ·) <$> ledger r room rest
  | room + 1, .includes domain :: rest =>
    (.includes domain :: ·) <$> do
      let included ← if room = 0 then pure none else published r domain
      ledger r room (countedTerms (directivesOf included) ++ rest)

variable {r : Resolver}

@[simp] theorem ledger_zero (terms : List Counted) : ledger r 0 terms = pure [] := by
  simp [ledger]

@[simp] theorem ledger_nil (room : Nat) : ledger r room [] = pure [] := by
  cases room <;> simp [ledger]

theorem ledger_address (room : Nat) (rest : List Counted) :
    ledger r (room + 1) (.address :: rest) = (.address :: ·) <$> ledger r room rest := by
  simp [ledger]

/-- An include that takes the last of the room. -/
theorem ledger_one_includes (domain : String) (rest : List Counted) :
    ledger r 1 (.includes domain :: rest) = pure [.includes domain] := by
  simp [ledger]

theorem ledger_includes (room : Nat) (domain : String) (rest : List Counted) :
    ledger r (room + 2) (.includes domain :: rest) =
      (.includes domain :: ·) <$> (published r domain >>= fun included =>
        ledger r (room + 1) (countedTerms (directivesOf included) ++ rest)) := by
  simp [ledger]

theorem ledger_includes_of_error {domain : String} {e : Failure}
    (h : (published r domain).outcome = .error e) (room : Nat) (rest : List Counted) :
    ledger r (room + 2) (.includes domain :: rest) = ⟨[domain], .error e⟩ := by
  rw [ledger_includes, Lookup.bind_of_error h, asked_published]
  rfl

theorem ledger_includes_of_ok {domain : String} {included : Option Record}
    (h : (published r domain).outcome = .ok included) (room : Nat) (rest : List Counted) :
    ledger r (room + 2) (.includes domain :: rest) =
      let behind := ledger r (room + 1) (countedTerms (directivesOf included) ++ rest)
      ⟨domain :: behind.asked, behind.outcome.map (.includes domain :: ·)⟩ := by
  rw [ledger_includes, Lookup.bind_of_ok h, asked_published]
  rfl

/-- The terms to come may be cut anywhere: what the first part leaves of the room is for the second. -/
theorem ledger_append (room : Nat) (xs ys : List Counted) :
    ledger r room (xs ++ ys) =
      ledger r room xs >>= fun first => (first ++ ·) <$> ledger r (room - first.length) ys := by
  -- on the room, since an include can put more terms in front than it takes away
  induction room generalizing xs with
  | zero => simp
  | succ room ih =>
    match xs, room with
    | [], _ => simp
    | .address :: xs, _ =>
      rw [List.cons_append, ledger_address, ledger_address, ih]
      simp [map_bind, bind_map_left]
    | .includes domain :: xs, 0 => simp [ledger_one_includes]
    | .includes domain :: xs, room + 1 =>
      have h (included : Option Record) := ih (countedTerms (directivesOf included) ++ xs)
      simp only [List.append_assoc] at h
      rw [List.cons_append, ledger_includes, ledger_includes]
      simp [map_bind, bind_map_left, h]

/-- A tally that was made at some depth has counted at least the includes above. The walk then counts what
the ledger writes down in the room that is left, and asks for the same names. -/
theorem walk_eq_ledger {limit depth : Nat} {t : Tally} {ds : List Directive}
    (h : depth ≤ t.includes) :
    walk r limit depth t ds =
      t.count <$> ledger r (limit + 1 - t.total) (countedTerms ds) := by
  fun_induction walk r limit depth t ds with
  | case1 depth t => simp
  | case2 depth t d ds ht => simp [Nat.sub_eq_zero_of_le ht]
  | case3 depth t d ds _ hd ih => rw [countedTerms_cons_of_none hd, ih h]
  | case4 depth t d ds ht hd ih =>
    have hroom : limit + 1 - t.total = (limit + 1 - t.countAddress.total) + 1 := by
      rw [Tally.total_countAddress]; omega
    rw [countedTerms_cons_of_some hd, hroom, ledger_address, ih h]
    simp [Tally.add]
  | case5 depth t d ds ht domain hd t' ht' =>
    have hroom : limit + 1 - t.total = 1 := by
      simp only [t', Tally.total_countInclude] at ht'; omega
    rw [countedTerms_cons_of_some hd, hroom, ledger_one_includes]
    simp [Tally.add, t']
  | case6 depth t d ds ht domain hd t' ht' hdepth ih =>
    -- the includes above and this one alone would exceed the limit
    have hincludes : t'.includes = t.includes + 1 := rfl
    have htotal : t'.total = t'.includes + t'.addresses := rfl
    omega
  | case7 depth t d ds ht domain hd t' ht' hdepth ihIncluded ihRest =>
    -- the room for the included record is what is left behind its include, and the room for the rest
    -- what that record leaves of it
    have hincludes : t'.includes = t.includes + 1 := rfl
    have htotal : t'.total = t.total + 1 := Tally.total_countInclude t
    have hroom : limit + 1 - t.total = limit - t'.total + 2 := by omega
    have hincluded (included : Option Record) := ihIncluded included (by omega)
    have hrest (terms : List Counted) := ihRest (t'.count terms) (by
      rw [Tally.includes_count]; omega)
    have hleft (terms : List Counted) :
        limit + 1 - (t'.count terms).total = limit - t'.total + 1 - terms.length := by
      rw [Tally.total_count]; omega
    have hnested : limit + 1 - t'.total = limit - t'.total + 1 := by omega
    rw [countedTerms_cons_of_some hd, hroom, ledger_includes]
    simp only [hincluded, hnested, bind_map_left, hrest, hleft, ledger_append, map_bind,
      Functor.map_map, Tally.count_cons, Tally.count_append]
    rfl

end SenderAuth.Spf
