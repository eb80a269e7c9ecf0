import SenderAuth.Checker
import SenderAuth.Dns.Zone

/-!
What the checks can see of an answer. Each looks for one thing among the strings at a name, and answers
in which it finds the same are all one to it, along a whole chain of includes as well: so are the ways of
not being there, and all strings that it does not look for.
-/
namespace SenderAuth
namespace Dns
variable {β γ : Type} {view : List String → Option β}

/-- Answers in which there is nothing to be seen: nothing is there, or nothing that is looked for. -/
inductive Unseen (view : List String → Option β) : Except Failure (List String) → Prop
  | absent {e : Failure} (h : ¬ e.Transient) : Unseen view (.error e)
  | overlooked {records : List String} (h : view records = none) : Unseen view (.ok records)

/-- Answers that look alike to one who looks for no more than the view of their strings. -/
inductive Alike (view : List String → Option β) :
    Except Failure (List String) → Except Failure (List String) → Prop
  | failed {e : Failure} (h : e.Transient) : Alike view (.error e) (.error e)
  | seen {xs ys : List String} {b : β} (hx : view xs = some b) (hy : view ys = some b) :
      Alike view (.ok xs) (.ok ys)
  | unseen {x y : Except Failure (List String)} (hx : Unseen view x) (hy : Unseen view y) :
      Alike view x y

/-- What is seen of an answer once it is read. -/
def sight (view : List String → Option β) (answer : Except Failure (List String)) :
    Except Failure (Option β) :=
  (TxtLookup.ofAnswer answer).map fun found => view found.records

theorem sight_ok (records : List String) : sight view (.ok records) = .ok (view records) := by
  cases records <;> rfl

theorem Unseen.sight_eq {x : Except Failure (List String)} (h : Unseen view x) (hnil : view [] = none) :
    sight view x = .ok none := by
  cases h with
  | overlooked h => rw [sight_ok, h]
  | absent h =>
    rw [sight, TxtLookup.ofAnswer_error_of_not_transient h]
    exact congrArg Except.ok hnil

theorem sight_eq_ok_some_iff {answer : Except Failure (List String)} {b : β} (hnil : view [] = none) :
    sight view answer = .ok (some b) ↔ ∃ records, answer = .ok records ∧ view records = some b := by
  cases answer with
  | ok records => simp [sight_ok]
  | error e =>
    refine iff_of_false ?_ nofun
    by_cases htransient : e.Transient
    · rw [sight, TxtLookup.ofAnswer_eq_error_iff.2 ⟨rfl, Failure.transient_iff.1 htransient⟩]
      nofun
    · rw [(Unseen.absent htransient).sight_eq hnil]
      nofun

theorem Alike.sight_eq {x y : Except Failure (List String)} (h : Alike view x y)
    (hnil : view [] = none) : sight view x = sight view y := by
  cases h with
  | failed => rfl
  | seen hx hy => rw [sight_ok, sight_ok, hx, hy]
  | unseen hx hy => rw [hx.sight_eq hnil, hy.sight_eq hnil]

def nonempty (records : List String) : Option (List String) :=
  if records = [] then none else some records

theorem TxtLookup.ofAnswer_eq_of_alike {x y : Except Failure (List String)}
    (h : Alike nonempty x y) : ofAnswer x = ofAnswer y := by
  have hunseen {z : Except Failure (List String)} (hz : Unseen nonempty z) :
      ofAnswer z = .ok absent := by
    cases hz with
    | absent h => exact ofAnswer_error_of_not_transient h
    | @overlooked records h =>
      cases records with
      | nil => rfl
      | cons => simp [nonempty] at h
  cases h with
  | failed => rfl
  | seen hx hy =>
    simp only [nonempty, Option.ite_none_left_eq_some, Option.some.injEq] at hx hy
    rw [hx.2, hy.2]
  | unseen hx hy => rw [hunseen hx, hunseen hy]

variable {r s : Resolver}

theorem outcome_map_resolveTxt (name : String) (f : Option β → γ) :
    ((fun found => f (view found.records)) <$> resolveTxt r name).outcome =
      (sight view (r name)).map f := by
  rw [Lookup.outcome_map, outcome_resolveTxt, sight]
  cases TxtLookup.ofAnswer (r name) <;> rfl

/-- Work that comes down to a view of one answer does not tell answers apart that look alike. -/
theorem map_resolveTxt_eq_of_alike {name : String} (h : Alike view (r name) (s name))
    (hnil : view [] = none) (f : Option β → γ) :
    (fun found => f (view found.records)) <$> resolveTxt r name =
      (fun found => f (view found.records)) <$> resolveTxt s name := by
  ext1
  · rfl
  · rw [outcome_map_resolveTxt, outcome_map_resolveTxt, h.sight_eq hnil]

end Dns
open Dns

variable {r s : Resolver}

namespace Spf

theorem outcome_published_eq_sight (domain : String) : (published r domain).outcome =
    (sight select (r domain)).map (Option.map Record.parse) :=
  outcome_map_resolveTxt domain (Option.map Record.parse)

theorem published_eq_of_alike {domain : String} (h : Alike select (r domain) (s domain)) :
    published r domain = published s domain :=
  map_resolveTxt_eq_of_alike h select_nil (Option.map Record.parse)

theorem walk_congr (h : ∀ domain, published r domain = published s domain)
    (limit depth : Nat) (t : Tally) (ds : List Directive) :
    walk r limit depth t ds = walk s limit depth t ds := by
  fun_induction walk r limit depth t ds with
  | case1 => rw [walk_nil]
  | case2 depth t d ds ht => rw [walk_of_full ht]
  | case3 depth t d ds ht hd ih => rw [walk_cons_of_none ht hd, ih]
  | case4 depth t d ds ht hd ih => rw [walk_address ht hd, ih]
  | case5 depth t d ds ht domain hd t' ht' => rw [walk_includes_of_full ht hd ht']
  | case6 depth t d ds ht domain hd t' ht' hdepth ih =>
    rw [walk_includes_of_deep ht hd ht' hdepth, ih]
  | case7 depth t d ds ht domain hd t' ht' hdepth ihIncluded ihRest =>
    rw [walk_includes ht hd ht' hdepth, h domain]
    simp only [ihIncluded, ihRest, t']

theorem budget_congr (h : ∀ domain, published r domain = published s domain) (domain : String)
    (limit : Nat) : budget r domain limit = budget s domain limit := by
  rw [budget, budget, h]
  simp only [walk_congr h]

end Spf

namespace Dkim
open Text

/-- Whether one of the strings has a character that is not white space. -/
def inked (records : List String) : Option Unit :=
  if ∃ s ∈ records, s.toList.any (fun c => !isBlank c) = true then some () else none

theorem hasKey_iff {records : List String} :
    hasKey records = true ↔ ∃ s ∈ records, ∃ c ∈ s.toList, isBlank c = false := by
  simp [hasKey, trim_eq_nil_iff]

theorem inked_nil : inked [] = none := by simp [inked]

theorem verdict_eq_map_inked (r : Resolver) (domain selector : String) : verdict r domain selector =
    (fun found => (inked found.records).elim SetupState.notSetup fun _ => .setup) <$>
      resolveTxt r (DomainName.dkim selector domain) := by
  have hview (records : List String) :
      (if hasKey records then SetupState.setup else .notSetup) =
        (inked records).elim .notSetup fun _ => .setup := by
    simp only [hasKey_iff, inked, List.any_eq_true, Bool.not_eq_true']
    split <;> rfl
  simp only [verdict, hview]

theorem verdict_eq_of_alike {domain selector : String}
    (h : Alike inked (r (DomainName.dkim selector domain)) (s (DomainName.dkim selector domain))) :
    verdict r domain selector = verdict s domain selector := by
  rw [verdict_eq_map_inked, verdict_eq_map_inked]
  exact map_resolveTxt_eq_of_alike h inked_nil fun seen => seen.elim SetupState.notSetup fun _ => .setup

theorem verdictOfAny_congr {domain : String}
    (h : ∀ selector, verdict r domain selector = verdict s domain selector)
    (selectors : List String) : verdictOfAny r domain selectors = verdictOfAny s domain selectors := by
  induction selectors with
  | nil => rfl
  | cons selector selectors ih => rw [verdictOfAny_cons, verdictOfAny_cons, h, ih]

end Dkim

theorem Dmarc.published_eq_of_alike {domain : String}
    (h : Alike List.head? (r (DomainName.dmarc domain)) (s (DomainName.dmarc domain))) :
    published r domain = published s domain :=
  map_resolveTxt_eq_of_alike h rfl (Option.map Record.parse)

/-- Answers to a name that a check cannot tell apart. -/
def Check.Alike : Check → Except Failure (List String) → Except Failure (List String) → Prop
  | .query _ => Eq
  | .resolve _ => Dns.Alike nonempty
  | .spfRecord _ | .spfVerdict .. | .spfSender .. | .spfBudget .. | .spfStaysWithin .. =>
    Dns.Alike Spf.select
  | .dkimVerdict .. | .dkimVerdictOfAny .. => Dns.Alike Dkim.inked
  | .dmarcRecord _ | .dmarcVerdict .. => Dns.Alike List.head?

/-- A check has the same outcome and asks for the same names wherever the answers to all names look alike
to it. -/
theorem Checker.run_eq_of_alike (c : Checker) {k : Check} (h : ∀ name, k.Alike (r name) (s name)) :
    c.run r k = c.run s k := by
  have hspf (halike : ∀ name, Dns.Alike Spf.select (r name) (s name)) (domain : String) :
      Spf.published r domain = Spf.published s domain := Spf.published_eq_of_alike (halike domain)
  have hdkim (halike : ∀ name, Dns.Alike Dkim.inked (r name) (s name)) (domain selector : String) :
      Dkim.verdict r domain selector = Dkim.verdict s domain selector :=
    Dkim.verdict_eq_of_alike (halike _)
  rw [run_eq_function, run_eq_function]
  cases k with
  | query name =>
    have hname : r name = s name := h name
    simp only [Check.function, query, hname]
  | resolve name =>
    simp only [Check.function, resolveTxt, TxtLookup.ofAnswer_eq_of_alike (h name)]
  | spfRecord domain => simp only [Check.function, hspf h]
  | spfVerdict domain own => simp only [Check.function, Spf.verdict, hspf h]
  | spfSender domain sender => simp only [Check.function, Spf.hasSender, hspf h]
  | spfBudget domain own => simp only [Check.function, Spf.budget_congr (hspf h)]
  | spfStaysWithin domain own =>
    simp only [Check.function, Spf.staysWithin, Spf.budget_congr (hspf h)]
  | dkimVerdict domain selector => simp only [Check.function, hdkim h]
  | dkimVerdictOfAny domain selectors =>
    simp only [Check.function, Dkim.verdictOfAny_congr (hdkim h domain)]
  | dmarcRecord domain => simp only [Check.function, Dmarc.published_eq_of_alike (h _)]
  | dmarcVerdict domain =>
    simp only [Check.function, Dmarc.verdict, Dmarc.published_eq_of_alike (h _)]

/-- A record among other strings, with an include that there is nothing at. -/
def crowded : Zone :=
  (Zone.empty.addTxt "a.example"
    ["verification=1", "v=spf1 include:b.example a -all", "v=spf1 +all"]).setNxDomain "b.example"

/-- The same record alone, with an include at which there is something else. -/
def tidy : Zone :=
  (Zone.empty.addTxt "a.example" ["v=spf1 include:b.example a -all"]).addTxt "b.example"
    ["verification=2"]

theorem alike_crowded_tidy (name : String) :
    Dns.Alike Spf.select (crowded.answer name) (tidy.answer name) := by
  by_cases ha : Text.lower name = Text.lower "a.example"
  · rw [crowded.answer_congr ha, tidy.answer_congr ha]
    exact .seen rfl rfl
  by_cases hb : Text.lower name = Text.lower "b.example"
  · rw [crowded.answer_congr hb, tidy.answer_congr hb]
    exact .unseen (.absent (Failure.not_transient_iff.2 rfl)) (.overlooked rfl)
  · have hcrowded : crowded.answer name = .error .noRecords := by
      simp [Zone.answer, crowded, Zone.setNxDomain, ha, hb]
    have htidy : tidy.answer name = .error .noRecords := by
      simp [Zone.answer, tidy, ha, hb]
    rw [hcrowded, htidy]
    have habsent : ¬ Failure.noRecords.Transient := Failure.not_transient_iff.2 rfl
    exact .unseen (.absent habsent) (.absent habsent)

theorem Checker.run_eq_of_alike_crowded :
    (∀ name, (Check.spfBudget "a.example" none).Alike (crowded.answer name) (tidy.answer name)) ∧
      Checker.run {} crowded.answer (.spfBudget "a.example" none) =
        Checker.run {} tidy.answer (.spfBudget "a.example" none) :=
  ⟨alike_crowded_tidy, Checker.run_eq_of_alike {} alike_crowded_tidy⟩

end SenderAuth
