import SenderAuth.Proofs.Budget.Sum
import SenderAuth.Proofs.Check.View
import SenderAuth.Proofs.Record.Terms

/-!
Budgets and the order of terms. A walk that is not cut off goes through all that a record comes to, which
is the same but for its order when the terms of each record are put in another order; a walk that is cut
off in one order is cut off in every order.
-/
namespace SenderAuth.Spf
open Dns Text
open Stream' (Seq)

variable {r s : Resolver}

/-- What terms come to once the records behind them are gone through to their end: each term, and then
what the terms behind it come to. -/
inductive ComesTo (r : Resolver) : List Counted → List Counted → Prop
  | nil : ComesTo r [] []
  | cons {c : Counted} {behind rest inner outer : List Counted} (h : c.behind r = .ok behind)
      (hinner : ComesTo r behind inner) (houter : ComesTo r rest outer) :
      ComesTo r (c :: rest) (c :: (inner ++ outer))

namespace ComesTo

theorem append {xs ys as bs : List Counted} (hxs : ComesTo r xs as) (hys : ComesTo r ys bs) :
    ComesTo r (xs ++ ys) (as ++ bs) := by
  induction hxs with
  | nil => exact hys
  | cons h hinner _ _ ih =>
    rw [List.cons_append, List.cons_append, List.append_assoc]
    exact .cons h hinner ih

theorem exists_of_append {xs ys cs : List Counted} (h : ComesTo r (xs ++ ys) cs) :
    ∃ as bs, cs = as ++ bs ∧ ComesTo r xs as ∧ ComesTo r ys bs := by
  induction xs generalizing cs with
  | nil => exact ⟨[], cs, rfl, .nil, h⟩
  | cons x xs ih =>
    cases h with
    | @cons _ _ _ inner outer hbehind hinner houter =>
      obtain ⟨as, bs, rfl, has, hbs⟩ := ih houter
      exact ⟨x :: (inner ++ as), bs, by simp, .cons hbehind hinner has, hbs⟩

/-- Behind terms in another order stands the same in another order. -/
theorem exists_of_perm {xs ys as : List Counted} (h : ComesTo r xs as) (hperm : xs.Perm ys) :
    ∃ bs, ComesTo r ys bs ∧ as.Perm bs := by
  induction hperm generalizing as with
  | nil => exact ⟨as, h, .refl as⟩
  | cons c _ ih =>
    cases h with
    | @cons _ _ _ inner _ hbehind hinner houter =>
      obtain ⟨bs, hbs, hperm⟩ := ih houter
      exact ⟨c :: (inner ++ bs), .cons hbehind hinner hbs, (hperm.append_left inner).cons c⟩
  | swap c d rest =>
    cases h with
    | @cons _ _ _ innerD _ hd hinnerD houter =>
      cases houter with
      | @cons _ _ _ innerC outer hc hinnerC houter =>
        refine ⟨c :: (innerC ++ d :: (innerD ++ outer)), .cons hc hinnerC (.cons hd hinnerD houter), ?_⟩
        rw [List.perm_iff_count]
        intro x
        simp only [List.count_cons, List.count_append]
        omega
  | trans _ _ ih₁ ih₂ =>
    obtain ⟨bs, hbs, hfirst⟩ := ih₁ h
    obtain ⟨cs, hcs, hsecond⟩ := ih₂ hbs
    exact ⟨cs, hcs, hfirst.trans hsecond⟩

/-- The expansion is what the terms come to. -/
theorem take_expansion {xs as : List Counted} (h : ComesTo r xs as) (room : Nat) :
    (expansion r xs).take room = (as.take room).map Event.term := by
  induction room generalizing xs as with
  | zero => simp
  | succ room ih =>
    cases h with
    | nil => simp
    | cons hbehind hinner houter =>
      simp [expansion_cons_of_ok hbehind, ih (hinner.append houter)]

/-- An expansion that is over before the room is used up is all that the terms come to. -/
theorem of_take_expansion {xs as : List Counted} {room : Nat}
    (h : (expansion r xs).take (room + 1) = as.map Event.term) (hlength : as.length ≤ room) :
    ComesTo r xs as := by
  induction room generalizing xs as with
  | zero =>
    obtain rfl : as = [] := List.length_eq_zero_iff.1 (Nat.le_zero.1 hlength)
    cases xs with
    | nil => exact .nil
    | cons c rest => simp [expansion_cons] at h
  | succ room ih =>
    cases xs with
    | nil =>
      obtain rfl : as = [] := by simpa [eq_comm] using h
      exact .nil
    | cons c rest =>
      cases hbehind : c.behind r with
      | error e =>
        have hmem : Event.failure e ∈ as.map Event.term := by
          rw [← h, expansion_cons_of_error hbehind]
          simp
        simp at hmem
      | ok behind =>
        rw [expansion_cons_of_ok hbehind, Seq.take_succ_cons] at h
        cases as with
        | nil => simp at h
        | cons d as =>
          obtain ⟨hc, hrest⟩ : c = d ∧
              (expansion r (behind ++ rest)).take (room + 1) = as.map Event.term := by
            simpa using h
          obtain ⟨inner, outer, rfl, hinner, houter⟩ :=
            (ih hrest (Nat.le_of_succ_le_succ hlength)).exists_of_append
          exact hc ▸ .cons hbehind hinner houter

/-- The order of the records behind the terms plays no part either. -/
theorem exists_of_behind {xs as : List Counted} (h : ComesTo r xs as)
    (hbehind : ∀ (c : Counted) (xs : List Counted), c.behind r = .ok xs →
      ∃ ys, c.behind s = .ok ys ∧ xs.Perm ys) :
    ∃ bs, ComesTo s xs bs ∧ as.Perm bs := by
  induction h with
  | nil => exact ⟨[], .nil, .refl []⟩
  | @cons c behind rest inner outer hc _ _ ihInner ihOuter =>
    obtain ⟨behind', hc', hperm⟩ := hbehind c behind hc
    obtain ⟨inner₁, hinner₁, hfirst⟩ := ihInner
    obtain ⟨inner₂, hinner₂, hsecond⟩ := hinner₁.exists_of_perm hperm
    obtain ⟨outer', houter', hrest⟩ := ihOuter
    exact ⟨c :: (inner₂ ++ outer'), .cons hc' hinner₂ houter',
      ((hfirst.trans hsecond).append hrest).cons c⟩

end ComesTo
theorem Tally.count_eq_of_perm {xs ys : List Counted} (h : xs.Perm ys) (t : Tally) :
    t.count xs = t.count ys := by
  refine h.foldl_eq' (fun c _ d _ t => ?_) t
  cases c <;> cases d <;> rfl

/-- Answers with the same SPF terms, in any order: neither has a record, or one is the other with its terms
put in another order. -/
inductive SameTerms : Except Failure (List String) → Except Failure (List String) → Prop
  | unseen {x y : Except Failure (List String)} (hx : Unseen select x) (hy : Unseen select y) :
      SameTerms x y
  | seen {xs ys : List String} {ts us : List (List Char)} (hword : ∀ w ∈ ts, IsWord w)
      (hperm : ts.Perm us) (hx : select xs = some (spell ts)) (hy : select ys = some (spell us)) :
      SameTerms (.ok xs) (.ok ys)

theorem SameTerms.not_transient {e : Failure} {y : Except Failure (List String)}
    (h : SameTerms (.error e) y) : ¬ e.Transient := by
  cases h with
  | unseen hx _ =>
    cases hx with
    | absent h => exact h

theorem transientFree_of_sameTerms (h : ∀ name, SameTerms (r name) (s name)) : TransientFree r := by
  intro name e he
  have hname := h name
  rw [he] at hname
  exact Failure.not_transient_iff.1 hname.not_transient

theorem SameTerms.symm {x y : Except Failure (List String)} (h : SameTerms x y) : SameTerms y x := by
  cases h with
  | unseen hx hy => exact .unseen hy hx
  | seen hword hperm hx hy =>
    exact .seen (fun w hw => hword w (hperm.mem_iff.2 hw)) hperm.symm hy hx

theorem SameTerms.published {domain : String} (h : SameTerms (r domain) (s domain)) :
    ((published r domain).outcome = .ok none ∧ (published s domain).outcome = .ok none) ∨
      ∃ record other, (published r domain).outcome = .ok (some record) ∧
        (published s domain).outcome = .ok (some other) ∧
        record.directives.Perm other.directives := by
  rw [outcome_published_eq_sight, outcome_published_eq_sight]
  generalize r domain = x at h
  generalize s domain = y at h
  cases h with
  | unseen hx hy =>
    rw [hx.sight_eq select_nil, hy.sight_eq select_nil]
    exact .inl ⟨rfl, rfl⟩
  | seen hword hperm hx hy =>
    rw [sight_ok, sight_ok, hx, hy]
    exact .inr ⟨_, _, rfl, rfl, perm_directives_of_perm hword hperm⟩

theorem perm_countedTerms {ds es : List Directive} (h : ds.Perm es) :
    (countedTerms ds).Perm (countedTerms es) :=
  h.filterMap Directive.counted?

theorem exists_behind_of_sameTerms (h : ∀ name, SameTerms (r name) (s name)) (c : Counted)
    (xs : List Counted) (hc : c.behind r = .ok xs) : ∃ ys, c.behind s = .ok ys ∧ xs.Perm ys := by
  cases c with
  | address => exact ⟨xs, hc, .refl xs⟩
  | includes domain =>
    rcases (h domain).published with ⟨hr, hs⟩ | ⟨record, other, hr, hs, hperm⟩
    · rw [behind_includes_of_ok hr] at hc
      cases hc
      exact ⟨_, behind_includes_of_ok hs, .refl _⟩
    · rw [behind_includes_of_ok hr] at hc
      cases hc
      exact ⟨_, behind_includes_of_ok hs, perm_countedTerms hperm⟩

/-- What is counted of two records with the same terms, as long as there is room for all of it. -/
theorem perm_of_take_expansion (h : ∀ name, SameTerms (r name) (s name)) {xs ys as bs : List Counted}
    {limit : Nat} (hperm : xs.Perm ys) (has : (expansion r xs).take (limit + 1) = as.map Event.term)
    (hbs : (expansion s ys).take (limit + 1) = bs.map Event.term) (hlength : as.length ≤ limit) :
    as.Perm bs := by
  obtain ⟨cs, hcs, hfirst⟩ :=
    (ComesTo.of_take_expansion has hlength).exists_of_behind (exists_behind_of_sameTerms h)
  obtain ⟨ds, hds, hsecond⟩ := hcs.exists_of_perm hperm
  have hcount : as.Perm ds := hfirst.trans hsecond
  have hall : ds.take (limit + 1) = ds := by
    rw [List.take_of_length_le (hcount.length_eq ▸ Nat.le_succ_of_le hlength)]
  have hterms := hds.take_expansion (limit + 1)
  rw [hbs, hall] at hterms
  obtain rfl : bs = ds := List.map_injective_iff.2 (fun _ _ => Event.term.inj) hterms
  exact hcount

/-- With the terms of each record put in another order, a domain has a budget as before: with the same
total, within the limit or not, and with the same counts if within. -/
theorem budget_of_sameTerms (h : ∀ name, SameTerms (r name) (s name)) (domain : String) (limit : Nat) :
    ((budget r domain limit).outcome = .ok none ∧ (budget s domain limit).outcome = .ok none) ∨
      ∃ report other, (budget r domain limit).outcome = .ok (some report) ∧
        (budget s domain limit).outcome = .ok (some other) ∧
        report.total = other.total ∧ report.withinLimit = other.withinLimit ∧
        (report.withinLimit = true → report.tally.includes = other.tally.includes ∧
          report.tally.addresses = other.tally.addresses) := by
  have hsymm (name : String) : SameTerms (s name) (r name) := (h name).symm
  rcases (h domain).published with ⟨hr, hs⟩ | ⟨record, record', hr, hs, hperm⟩
  · exact .inl ⟨by rw [budget_of_none hr], by rw [budget_of_none hs]⟩
  obtain ⟨terms, hterms, hreport⟩ :=
    exists_terms_of_transientFree (transientFree_of_sameTerms h) hr limit
  obtain ⟨terms', hterms', hreport'⟩ :=
    exists_terms_of_transientFree (transientFree_of_sameTerms hsymm) hs limit
  have hcounted := perm_countedTerms hperm
  refine .inr ⟨_, _, hreport, hreport', ?_⟩
  by_cases hlength : terms.length ≤ limit
  · have hsame := perm_of_take_expansion h hcounted hterms hterms' hlength
    rw [Tally.count_eq_of_perm hsame]
    exact ⟨rfl, rfl, fun _ => ⟨rfl, rfl⟩⟩
  · have hlength' : ¬ terms'.length ≤ limit := fun hle =>
      hlength ((perm_of_take_expansion hsymm hcounted.symm hterms' hterms hle).length_eq ▸ hle)
    have hfull {ts : List Counted} {events : Seq Event} (hts : events.take (limit + 1) = ts.map .term)
        (habove : ¬ ts.length ≤ limit) : ts.length = limit + 1 := by
      have hle : (events.take (limit + 1)).length ≤ limit + 1 := Seq.length_take_le
      rw [hts, List.length_map] at hle
      omega
    have hnot := mt (Report.withinLimit_ofTally limit terms).1 hlength
    have hnot' := mt (Report.withinLimit_ofTally limit terms').1 hlength'
    refine ⟨?_, by rw [Bool.eq_false_of_not_eq_true hnot, Bool.eq_false_of_not_eq_true hnot'],
      fun hwithin => absurd hwithin hnot⟩
    rw [Report.total_ofTally, Report.total_ofTally, hfull hterms hlength, hfull hterms' hlength']

/-- The two domains that include each other, with the terms of their records the other way round. -/
def pongPing : Zone :=
  (Zone.empty.addTxt "ping.example" ["unrelated", "v=spf1 -all include:pong.example a"]).addTxt
    "pong.example" ["v=spf1 -all include:ping.example"]

theorem sameTerms_pingPong_pongPing (name : String) :
    SameTerms (pingPong.answer name) (pongPing.answer name) := by
  have hword {terms : List (List Char)} (h : terms.all (decide <| IsWord ·) = true) :
      ∀ w ∈ terms, IsWord w := by
    simpa using h
  by_cases hping : lower name = lower "ping.example"
  · rw [pingPong.answer_congr hping, pongPing.answer_congr hping]
    have hperm : ["a".toList, "include:pong.example".toList, "-all".toList].Perm
        ["-all".toList, "include:pong.example".toList, "a".toList] := by decide
    exact .seen (hword (by decide)) hperm rfl rfl
  by_cases hpong : lower name = lower "pong.example"
  · rw [pingPong.answer_congr hpong, pongPing.answer_congr hpong]
    have hperm : ["include:ping.example".toList, "-all".toList].Perm
        ["-all".toList, "include:ping.example".toList] := by decide
    exact .seen (hword (by decide)) hperm rfl rfl
  · have hfirst : pingPong.answer name = .error .noRecords := by
      simp [Zone.answer, pingPong, hping, hpong]
    have hsecond : pongPing.answer name = .error .noRecords := by
      simp [Zone.answer, pongPing, hping, hpong]
    rw [hfirst, hsecond]
    have habsent : ¬ Failure.noRecords.Transient := Failure.not_transient_iff.2 rfl
    exact .unseen (.absent habsent) (.absent habsent)

theorem budget_of_sameTerms_pingPong :
    (∀ name, SameTerms (pingPong.answer name) (pongPing.answer name)) ∧
      (budget pingPong.answer "ping.example" 3).outcome = .ok (some ⟨⟨2, 2⟩, false⟩) ∧
      ∃ other, (budget pongPing.answer "ping.example" 3).outcome = .ok (some other) ∧
        other.total = 4 ∧ other.withinLimit = false := by
  have houtcome : (budget pingPong.answer "ping.example" 3).outcome =
      .ok (some ⟨⟨2, 2⟩, false⟩) := by
    rw [budget_eq_ledger published_pingPong]
    rfl
  refine ⟨sameTerms_pingPong_pongPing, houtcome, ?_⟩
  rcases budget_of_sameTerms sameTerms_pingPong_pongPing "ping.example" 3 with
    ⟨hnone, -⟩ | ⟨report, other, hreport, hother, htotal, hwithin, -⟩
  · rw [houtcome] at hnone
    cases hnone
  · rw [houtcome] at hreport
    cases hreport
    exact ⟨other, hother, htotal.symm, hwithin.symm⟩

end SenderAuth.Spf
