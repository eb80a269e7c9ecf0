import SenderAuth.Proofs.Budget.Reading
import SenderAuth.Spf.WalkState

/-!
The depth of includes decides nothing. A walk has counted at least as many includes as it lies deep, so that
an include that lies as deep as the limit allows is above the limit already when it is counted. Without the
guard a walk goes through the same states, asks for the same names and comes to the same end.
-/
namespace SenderAuth.Spf
open Dns

variable {r : Resolver} {limit : Nat} {guarded : Bool}

namespace WalkState

/-- What one step can do. -/
inductive Moves (r : Resolver) (limit : Nat) (guarded : Bool) : WalkState → WalkState → Prop
  /-- Above the limit the record is left, whether it is read or an include in it was just counted. -/
  | stop {reading : Reading} {outer : List Reading} {target : Option String} {t : Tally}
      (h : limit < t.total) : Moves r limit guarded ⟨reading :: outer, target, t⟩ ⟨outer, none, t⟩
  | finish {depth : Nat} {outer : List Reading} {t : Tally} :
      Moves r limit guarded ⟨⟨depth, []⟩ :: outer, none, t⟩ ⟨outer, none, t⟩
  | passOver {d : Directive} {depth : Nat} {ds : List Directive} {outer : List Reading} {t : Tally}
      (h : ¬ limit < t.total) (hd : d.counted? = none) :
      Moves r limit guarded ⟨⟨depth, d :: ds⟩ :: outer, none, t⟩ ⟨⟨depth, ds⟩ :: outer, none, t⟩
  | address {d : Directive} {depth : Nat} {ds : List Directive} {outer : List Reading} {t : Tally}
      (h : ¬ limit < t.total) (hd : d.counted? = some .address) :
      Moves r limit guarded ⟨⟨depth, d :: ds⟩ :: outer, none, t⟩
        ⟨⟨depth, ds⟩ :: outer, none, t.countAddress⟩
  | includes {d : Directive} {domain : String} {depth : Nat} {ds : List Directive}
      {outer : List Reading} {t : Tally} (h : ¬ limit < t.total)
      (hd : d.counted? = some (.includes domain)) :
      Moves r limit guarded ⟨⟨depth, d :: ds⟩ :: outer, none, t⟩
        ⟨⟨depth, ds⟩ :: outer, some domain, t.countInclude⟩
  | turnBack {reading : Reading} {outer : List Reading} {domain : String} {t : Tally}
      (h : ¬ limit < t.total) (hguard : guarded = true ∧ limit ≤ reading.depth) :
      Moves r limit guarded ⟨reading :: outer, some domain, t⟩ ⟨reading :: outer, none, t⟩
  | follow {reading : Reading} {outer : List Reading} {domain : String} {t : Tally}
      {included : Option Record} (h : ¬ limit < t.total)
      (hguard : ¬ (guarded = true ∧ limit ≤ reading.depth))
      (hpublished : (published r domain).outcome = .ok included) :
      Moves r limit guarded ⟨reading :: outer, some domain, t⟩ (enter reading outer t included)

theorem Leads.moves {s s' : WalkState} (h : Leads r limit guarded s s') :
    Moves r limit guarded s s' := by
  obtain ⟨x, hx, hok⟩ := h
  match s, hx with
  | ⟨reading :: outer, some domain, t⟩, hx =>
    cases hx
    split_ifs at hok with hfull hguard
    · cases hok
      exact .stop hfull
    · cases hok
      exact .turnBack hfull hguard
    · cases hpublished : (published r domain).outcome with
      | error e => simp [hpublished, Except.map] at hok
      | ok included =>
        obtain rfl : enter reading outer t included = s' := by
          simpa [hpublished, Except.map] using hok
        exact .follow hfull hguard hpublished
  | ⟨⟨depth, []⟩ :: outer, none, t⟩, hx =>
    cases hx
    cases hok
    exact .finish
  | ⟨⟨depth, d :: ds⟩ :: outer, none, t⟩, hx =>
    cases hx
    split_ifs at hok with hfull
    · cases hok
      exact .stop hfull
    · split at hok
      · rename_i hd
        cases hok
        exact .passOver hfull hd
      · rename_i hd
        cases hok
        exact .address hfull hd
      · rename_i hd
        cases hok
        exact .includes hfull hd

/-- Every record that is being read has the includes that lead to it counted, and the include that was
counted last comes on top of them. -/
structure Accounted (s : WalkState) : Prop where
  depth_le : ∀ reading ∈ s.readings, reading.depth ≤ s.tally.includes
  depth_lt : s.target.isSome = true → ∀ reading ∈ s.readings, reading.depth < s.tally.includes

theorem accounted_of_no_target {readings : List Reading} {t : Tally}
    (h : ∀ reading ∈ readings, reading.depth ≤ t.includes) : Accounted ⟨readings, none, t⟩ :=
  ⟨h, nofun⟩

/-- How deep the records lie is not a matter of how far they are read. -/
theorem depth_le_of_read {n depth : Nat} {ds ds' : List Directive} {outer : List Reading}
    (h : ∀ reading ∈ ⟨depth, ds⟩ :: outer, reading.depth ≤ n) :
    ∀ reading ∈ ⟨depth, ds'⟩ :: outer, reading.depth ≤ n :=
  List.forall_mem_cons.2 (List.forall_mem_cons.1 h)

theorem accounted_start (ds : List Directive) : (start ds).Accounted :=
  accounted_of_no_target (by simp)

/-- A walk that goes on behind an include lies below the limit. -/
theorem Accounted.depth_lt_limit {s : WalkState} (h : s.Accounted) (htarget : s.target.isSome = true)
    (htotal : s.tally.total ≤ limit) : ∀ reading ∈ s.readings, reading.depth < limit := by
  intro reading hmem
  calc reading.depth
    _ < s.tally.includes := h.depth_lt htarget reading hmem
    _ ≤ s.tally.total := Nat.le_add_right _ _
    _ ≤ limit := htotal

theorem accounted_enter {reading : Reading} {outer : List Reading} {t : Tally}
    (h : ∀ f ∈ reading :: outer, f.depth < t.includes) (included : Option Record) :
    (enter reading outer t included).Accounted := by
  have hle : ∀ f ∈ reading :: outer, f.depth ≤ t.includes := fun f hf => (h f hf).le
  cases included with
  | none => exact accounted_of_no_target hle
  | some record => exact accounted_of_no_target (List.forall_mem_cons.2 ⟨h _ List.mem_cons_self, hle⟩)

/-- What one step keeps. -/
theorem Accounted.of_leads {s s' : WalkState} (h : s.Accounted) (hleads : Leads r limit guarded s s') :
    s'.Accounted := by
  cases hleads.moves with
  | stop => exact accounted_of_no_target (List.forall_mem_cons.1 h.depth_le).2
  | finish => exact accounted_of_no_target (List.forall_mem_cons.1 h.depth_le).2
  | passOver => exact accounted_of_no_target (depth_le_of_read h.depth_le)
  | address => exact accounted_of_no_target (depth_le_of_read h.depth_le)
  | @includes _ _ depth ds outer t =>
    have hless : ∀ reading ∈ ⟨depth, ds⟩ :: outer, reading.depth < t.countInclude.includes :=
      fun reading hmem => Nat.lt_succ_of_le (depth_le_of_read h.depth_le reading hmem)
    exact ⟨fun reading hmem => (hless reading hmem).le, fun _ => hless⟩
  | turnBack => exact accounted_of_no_target h.depth_le
  | follow => exact accounted_enter (h.depth_lt rfl) _

/-- What a whole walk keeps. -/
theorem Reached.accounted {ds : List Directive} {s : WalkState} (h : Reached r limit guarded ds s) :
    s.Accounted := by
  induction h with
  | refl => exact accounted_start ds
  | tail _ hleads ih => exact ih.of_leads hleads

/-- The guard never comes to bear. -/
theorem Accounted.step_eq {s : WalkState} (h : s.Accounted) :
    s.step r limit guarded = s.step r limit true := by
  match s, h with
  | ⟨[], _, _⟩, _ => rfl
  | ⟨⟨_, []⟩ :: _, none, _⟩, _ => rfl
  | ⟨⟨_, _ :: _⟩ :: _, none, _⟩, _ => rfl
  | ⟨reading :: outer, some domain, t⟩, h =>
    by_cases hfull : limit < t.total
    · simp only [step, if_pos hfull]
    · have hlt : reading.depth < limit :=
        h.depth_lt_limit rfl (Nat.le_of_not_lt hfull) reading List.mem_cons_self
      simp only [step, hlt.not_ge, and_false]

namespace RunsTo

theorem unique {s : WalkState} {x y : Lookup Tally} (hx : RunsTo r limit guarded s x)
    (hy : RunsTo r limit guarded s y) : x = y := by
  induction hx generalizing y with
  | done h =>
    cases hy with
    | done => rfl
    | fail h' | next h' => rw [h] at h'; cases h'
  | fail h he =>
    cases hy with
    | done h' => rw [h] at h'; cases h'
    | fail h' he' =>
      obtain rfl := Option.some.inj (h.symm.trans h')
      obtain rfl := Except.error.inj (he.symm.trans he')
      rfl
    | next h' hok =>
      obtain rfl := Option.some.inj (h.symm.trans h')
      rw [he] at hok
      cases hok
  | next h hok _ ih =>
    cases hy with
    | done h' => rw [h] at h'; cases h'
    | fail h' he =>
      obtain rfl := Option.some.inj (h.symm.trans h')
      rw [hok] at he
      cases he
    | next h' hok' hrest =>
      obtain rfl := Option.some.inj (h.symm.trans h')
      obtain rfl := Except.ok.inj (hok.symm.trans hok')
      rw [ih hrest]

/-- A run is the same with and without the guard. -/
theorem of_accounted {s : WalkState} {x : Lookup Tally} {other : Bool}
    (h : RunsTo r limit guarded s x) (hs : s.Accounted) : RunsTo r limit other s x := by
  have hsame {s : WalkState} (hs : s.Accounted) :
      s.step r limit other = s.step r limit guarded := hs.step_eq.trans hs.step_eq.symm
  induction h with
  | done h => exact .done (hsame hs ▸ h)
  | fail h he => exact .fail (hsame hs ▸ h) he
  | next h hok _ ih => exact .next (hsame hs ▸ h) hok (ih (hs.of_leads ⟨_, h, hok⟩))

theorem of_pure {s s' : WalkState} {y : Lookup Tally} (h : s.step r limit guarded = some (pure s'))
    (hrest : RunsTo r limit guarded s' y) : RunsTo r limit guarded s y :=
  .next h rfl hrest

theorem of_map {α : Type} {s : WalkState} {x : Lookup α} {f : α → WalkState} {k : α → Lookup Tally}
    (h : s.step r limit guarded = some (f <$> x))
    (hrest : ∀ a, x.outcome = .ok a → RunsTo r limit guarded (f a) (k a)) :
    RunsTo r limit guarded s (x >>= k) := by
  cases hx : x.outcome with
  | error e =>
    rw [Lookup.bind_of_error hx]
    exact .fail h (by rw [Lookup.outcome_map, hx]; rfl)
  | ok a =>
    rw [Lookup.bind_of_ok hx]
    exact .next h (by rw [Lookup.outcome_map, hx]; rfl) (hrest a hx)

/-- The steps over a record do what the walk over its directives does, and what comes behind the record
goes on from there. -/
theorem walk_bind {depth : Nat} {t : Tally} {ds : List Directive} (outer : List Reading)
    {k : Tally → Lookup Tally} (hrest : ∀ t', RunsTo r limit true ⟨outer, none, t'⟩ (k t')) :
    RunsTo r limit true ⟨⟨depth, ds⟩ :: outer, none, t⟩ (walk r limit depth t ds >>= k) := by
  fun_induction walk r limit depth t ds generalizing outer k with
  | case1 depth t => exact of_pure rfl (by simpa using hrest t)
  | case2 depth t d ds ht =>
    have hfull : step r limit true ⟨⟨depth, d :: ds⟩ :: outer, none, t⟩ = some (pure ⟨outer, none, t⟩) := by
      simp [step, ht]
    exact of_pure hfull (by simpa using hrest t)
  | case3 depth t d ds ht hd ih | case4 depth t d ds ht hd ih =>
    exact of_pure (by simp [step, ht, hd]) (ih outer hrest)
  | case5 depth t d ds ht domain hd t' ht' =>
    have hfull : step r limit true ⟨⟨depth, ds⟩ :: outer, some domain, t'⟩ =
        some (pure ⟨outer, none, t'⟩) := by
      simp [step, ht']
    exact of_pure (step_includes ht hd ..) (of_pure hfull (by simpa using hrest t'))
  | case6 depth t d ds ht domain hd t' ht' hdepth ih =>
    have hpass : step r limit true ⟨⟨depth, ds⟩ :: outer, some domain, t'⟩ =
        some (pure ⟨⟨depth, ds⟩ :: outer, none, t'⟩) := by
      simp [step, ht', hdepth]
    exact of_pure (step_includes ht hd ..) (of_pure hpass (ih outer hrest))
  | case7 depth t d ds ht domain hd t' ht' hdepth ihIncluded ihRest =>
    have hfollow : step r limit true ⟨⟨depth, ds⟩ :: outer, some domain, t'⟩ =
        some (enter ⟨depth, ds⟩ outer t' <$> published r domain) := by
      simp [step, ht', hdepth]
    have hbehind (t' : Tally) := ihRest t' outer hrest
    rw [bind_assoc]
    refine of_pure (step_includes ht hd ..) (of_map hfollow fun included _ => ?_)
    rw [bind_assoc]
    cases included with
    | none =>
      simp only [directivesOf, Option.elim_none, walk_nil, pure_bind]
      exact hbehind t'
    | some record => exact ihIncluded (some record) _ hbehind

/-- With its guard, step by step, the walk comes to the end that it comes to as a whole. -/
theorem walk_start (r : Resolver) (limit : Nat) (ds : List Directive) :
    RunsTo r limit true (start ds) (walk r limit 0 {} ds) := by
  rw [← bind_pure (walk r limit 0 {} ds)]
  exact walk_bind [] fun t => .done rfl

end RunsTo
end WalkState
open WalkState

/-- Whatever the resolver answers, and with any limit: in each state that a walk goes through, with its
guard or without, at least as many includes are counted as any record being read lies deep, and an include
that is followed lies below the limit. With the guard and without, the steps come to an end, which is that
of the walk, and have asked for the same names; so a budget is the same without the guard. -/
theorem walk_without_guard (r : Resolver) (limit : Nat) (ds : List Directive) :
    (∀ guarded s, Reached r limit guarded ds s →
      (∀ reading ∈ s.readings, reading.depth ≤ s.tally.includes) ∧
      (s.target.isSome = true → s.tally.total ≤ limit → ∀ reading ∈ s.readings, reading.depth < limit)) ∧
    (∀ guarded x, RunsTo r limit guarded (start ds) x ↔ x = walk r limit 0 {} ds) ∧
    ∀ domain record, (published r domain).outcome = .ok (some record) → record.directives = ds →
      ∀ x, RunsTo r limit false (start ds) x → budget r domain limit =
        ⟨domain :: x.asked, x.outcome.map fun t => some (Report.ofTally limit t)⟩ := by
  have hwalk (guarded : Bool) : RunsTo r limit guarded (start ds) (walk r limit 0 {} ds) :=
    (RunsTo.walk_start r limit ds).of_accounted (accounted_start ds)
  refine ⟨fun guarded s h => ⟨h.accounted.depth_le, h.accounted.depth_lt_limit⟩, fun guarded x => ?_, ?_⟩
  · constructor
    · exact fun h => h.unique (hwalk guarded)
    · rintro rfl
      exact hwalk guarded
  · rintro domain record hpublished rfl x hx
    rw [hx.unique (hwalk false), budget_of_some hpublished]

/-- Four steps into the records that include each other, with the second include just counted. -/
def pingPongState : WalkState :=
  ⟨[⟨1, [⟨.fail, .all⟩]⟩, ⟨0, [⟨.fail, .all⟩]⟩], some "ping.example", ⟨2, 1⟩⟩

theorem reached_pingPongState : Reached pingPong.answer 3 false
    (Record.parse "v=spf1 a include:pong.example -all").directives pingPongState := by
  have hds : (Record.parse "v=spf1 a include:pong.example -all").directives =
      [⟨.pass, .a ⟨none, none, none⟩⟩, ⟨.pass, .includes "pong.example"⟩, ⟨.fail, .all⟩] := by
    decide +kernel
  rw [hds]
  exact .tail (.tail (.tail (.tail .refl ⟨_, rfl, rfl⟩) ⟨_, rfl, rfl⟩) ⟨_, rfl, rfl⟩) ⟨_, rfl, rfl⟩

theorem walk_without_guard_pingPong :
    let record := Record.parse "v=spf1 a include:pong.example -all"
    Reached pingPong.answer 3 false record.directives pingPongState ∧
      (∀ reading ∈ pingPongState.readings, reading.depth < 3) ∧
      (published pingPong.answer "ping.example").outcome = .ok (some record) ∧
      ∃ x, RunsTo pingPong.answer 3 false (start record.directives) x ∧
        budget pingPong.answer "ping.example" 3 =
          ⟨"ping.example" :: x.asked, x.outcome.map fun t => some (Report.ofTally 3 t)⟩ := by
  intro record
  obtain ⟨hstates, hruns, hbudget⟩ := walk_without_guard pingPong.answer 3 record.directives
  have hlimit : pingPongState.tally.total ≤ 3 := by decide
  have hrun := (hruns false _).2 rfl
  exact ⟨reached_pingPongState, (hstates false _ reached_pingPongState).2 rfl hlimit,
    published_pingPong, _, hrun, hbudget _ _ published_pingPong rfl _ hrun⟩

end SenderAuth.Spf
