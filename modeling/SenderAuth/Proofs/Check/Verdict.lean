import SenderAuth.Proofs.Check.Failure
import SenderAuth.Proofs.Check.View
import SenderAuth.Proofs.Record.Version

/-!
The SPF verdict on a domain, said of the record that it publishes. The warnings that validations ask about
come down to where the directives that match every sender stand and to whether there is a redirect.
-/
namespace SenderAuth.Spf
open Dns Text

/-- The last directive, and no other, matches every sender. -/
def EndsInAll (ds : List Directive) : Prop :=
  ∃ before d, ds = before ++ [d] ∧ d.mechanism = .all ∧ ∀ e ∈ before, e.mechanism ≠ .all

theorem endsInAll_iff {ds : List Directive} :
    EndsInAll ds ↔ (∃ d ∈ ds, d.mechanism = .all) ∧ ¬ Unreached ds := by
  rw [unreached_iff]
  constructor
  · rintro ⟨before, d, rfl, hd, hbefore⟩
    exact ⟨⟨d, by simp, hd⟩, by simpa using hbefore⟩
  · rintro ⟨⟨d, hmem, hd⟩, hnone⟩
    obtain ⟨before, last, rfl⟩ := (List.eq_nil_or_concat ds).resolve_left (List.ne_nil_of_mem hmem)
    have hbefore : ∀ e ∈ before, e.mechanism ≠ .all := by simpa using hnone
    rw [List.concat_eq_append] at hmem ⊢
    rcases List.mem_append.1 hmem with hmem | hmem
    · exact absurd hd (hbefore d hmem)
    · obtain rfl := List.mem_singleton.1 hmem
      exact ⟨before, d, rfl, hd, hbefore⟩

theorem not_unreached_and_not_openEnded_iff {ds : List Directive} {redirect : Option String} :
    ¬ Unreached ds ∧ ¬ OpenEnded ds redirect ↔
      EndsInAll ds ∨ (∀ d ∈ ds, d.mechanism ≠ .all) ∧ redirect.isSome = true := by
  rw [endsInAll_iff, OpenEnded, Option.isSome_iff_ne_none]
  by_cases hall : ∃ d ∈ ds, d.mechanism = .all
  · have hnot : ¬ ∀ d ∈ ds, d.mechanism ≠ .all := by simpa using hall
    simp [hall, hnot]
  · have hnone : ∀ d ∈ ds, d.mechanism ≠ .all := by simpa using hall
    have hreached : ¬ Unreached ds := by
      rintro ⟨before, d, after, rfl, hd, -⟩
      exact hnone d (by simp) hd
    refine ⟨fun h => .inr ⟨hnone, fun hno => h.2 ⟨hnone, hno⟩⟩, fun h => ?_⟩
    have hsome := (h.resolve_left fun hends => hall hends.1).2
    exact ⟨hreached, fun hopen => hsome hopen.2⟩

/-- What makes a record unfit: an error, or a warning that the validations ask about. -/
def Record.Unfit (v : Validations) (record : Record) : Prop :=
  (∃ d ∈ record.messages, d.severity = .error) ∨
    (v.allIsLast = true ∧ Unreached record.directives) ∨
    (v.allOrRedirect = true ∧ OpenEnded record.directives record.redirect)

theorem Record.valid_eq_false_iff {record : Record} :
    record.valid = false ↔ ∃ d ∈ record.messages, d.severity = .error := by
  simp [valid, Diagnostic.isError]

theorem state_parse_eq_invalid_iff {s : String} (h : isSpf s = true) (v : Validations) :
    (Record.parse s).state v = .invalid ↔ (Record.parse s).Unfit v := by
  obtain ⟨rest, hrest⟩ := Option.isSome_iff_exists.1
    (invalidVersion_notMem_parse_iff.1 (invalidVersion_notMem_of_isSpf h))
  rw [Record.Unfit, ← Record.valid_eq_false_iff, Record.parse_eq, hrest,
    ← mechanismAfterAll_mem_ofTerms_iff faultIsError_of_mem_map_read,
    ← noAllOrRedirect_mem_ofTerms_iff faultIsError_of_mem_map_read, Record.state]
  split_ifs <;> simp_all

theorem Record.state_eq_setup_iff {record : Record} {v : Validations} :
    record.state v = .setup ↔ record.state v ≠ .invalid := by
  unfold state
  split_ifs <;> simp

/-- One asks for no more than the other. -/
instance : LE Validations where
  le v w := (v.allIsLast = true → w.allIsLast = true) ∧ (v.allOrRedirect = true → w.allOrRedirect = true)

theorem Record.state_of_le {v w : Validations} (h : v ≤ w) (record : Record) :
    record.state w = record.state v ∨ record.state v = .setup ∧ record.state w = .invalid := by
  obtain ⟨hlast, hredirect⟩ := h
  unfold state
  split_ifs <;> simp_all

theorem not_unfit_strict_iff {record : Record} : ¬ record.Unfit .strict ↔
    (∀ d ∈ record.messages, d.severity ≠ .error) ∧
      (EndsInAll record.directives ∨
        (∀ d ∈ record.directives, d.mechanism ≠ .all) ∧ record.redirect.isSome = true) := by
  rw [← not_unreached_and_not_openEnded_iff, Record.Unfit]
  simp [Validations.strict]

/-- The verdict by what is seen of the answer. -/
theorem outcome_verdict (r : Resolver) (domain : String) (v : Validations) :
    (verdict r domain v).outcome = (sight select (r domain)).map fun found =>
      found.elim .notSetup fun s => (Record.parse s).state v := by
  rw [verdict, Lookup.outcome_map, outcome_published_eq_sight]
  cases sight select (r domain) with
  | error e => rfl
  | ok found => cases found <;> rfl

theorem outcome_verdict_of_select {r : Resolver} {domain s : String} {records : List String}
    (hanswer : r domain = .ok records) (hselect : select records = some s) (v : Validations) :
    (verdict r domain v).outcome = .ok ((Record.parse s).state v) := by
  simp [outcome_verdict, hanswer, sight_ok, hselect, Except.map]

theorem outcome_verdict_eq_notSetup_iff {r : Resolver} {domain : String} (h : Settled r domain)
    (v : Validations) :
    (verdict r domain v).outcome = .ok .notSetup ↔ Unseen select (r domain) := by
  cases hanswer : r domain with
  | error e =>
    have hunseen : Unseen select (.error e) := .absent (h e hanswer)
    rw [outcome_verdict, hanswer, hunseen.sight_eq select_nil]
    exact iff_of_true rfl hunseen
  | ok records =>
    cases hselect : select records with
    | none =>
      rw [outcome_verdict, hanswer, sight_ok, hselect]
      exact iff_of_true rfl (.overlooked hselect)
    | some s =>
      have hstate : (Record.parse s).state v ≠ .notSetup := by
        unfold Record.state
        split_ifs <;> simp
      rw [outcome_verdict_of_select hanswer hselect]
      refine iff_of_false (by simpa using hstate) ?_
      rintro (_ | hnone)
      simp [hselect] at hnone

theorem outcome_verdict_of_le {v w : Validations} (h : v ≤ w) (r : Resolver) (domain : String) :
    (verdict r domain w).outcome = (verdict r domain v).outcome ∨
      (verdict r domain v).outcome = .ok .setup ∧ (verdict r domain w).outcome = .ok .invalid := by
  rw [outcome_verdict, outcome_verdict]
  match sight select (r domain) with
  | .error e => simp [Except.map]
  | .ok none => simp [Except.map]
  | .ok (some s) =>
    simp only [Except.map, Option.elim_some, Except.ok.injEq]
    exact (Record.parse s).state_of_le h

/-- A verdict takes one question. It is that nothing is set up where no record is seen, and is otherwise
on the record that is selected: whether there is an error in it, and whether its directives stand as the
validations ask. More validations can only spoil a record that was fit. -/
theorem outcome_verdict_iff (r : Resolver) (domain : String) (v : Validations) :
    (verdict r domain v).asked = [domain] ∧
    (Settled r domain →
      ((verdict r domain v).outcome = .ok .notSetup ↔ Unseen select (r domain)) ∧
      ∀ records s, r domain = .ok records → select records = some s →
        (∀ found, .invalidVersion found ∉ (Record.parse s).messages) ∧
        ((verdict r domain v).outcome = .ok .invalid ↔ (Record.parse s).Unfit v) ∧
        ((verdict r domain v).outcome = .ok .setup ↔ ¬ (Record.parse s).Unfit v) ∧
        ((verdict r domain .strict).outcome = .ok .setup ↔
          (∀ d ∈ (Record.parse s).messages, d.severity ≠ .error) ∧
            (EndsInAll (Record.parse s).directives ∨
              (∀ d ∈ (Record.parse s).directives, d.mechanism ≠ .all) ∧
                (Record.parse s).redirect.isSome = true))) ∧
    ∀ w, v ≤ w → (verdict r domain w).outcome = (verdict r domain v).outcome ∨
      (verdict r domain v).outcome = .ok .setup ∧ (verdict r domain w).outcome = .ok .invalid := by
  refine ⟨asked_verdict r domain v, fun hsettled => ⟨outcome_verdict_eq_notSetup_iff hsettled v,
    fun records s hanswer hselect => ?_⟩, fun w h => outcome_verdict_of_le h r domain⟩
  have hspf : isSpf s = true := List.find?_some hselect
  have hinvalid (u : Validations) :
      (verdict r domain u).outcome = .ok .invalid ↔ (Record.parse s).Unfit u := by
    rw [outcome_verdict_of_select hanswer hselect, Except.ok.injEq, state_parse_eq_invalid_iff hspf]
  have hsetup (u : Validations) :
      (verdict r domain u).outcome = .ok .setup ↔ ¬ (Record.parse s).Unfit u := by
    rw [outcome_verdict_of_select hanswer hselect, Except.ok.injEq, Record.state_eq_setup_iff, Ne,
      state_parse_eq_invalid_iff hspf]
  exact ⟨invalidVersion_notMem_of_isSpf hspf, hinvalid v, hsetup v,
    (hsetup .strict).trans not_unfit_strict_iff⟩

def lateRecord : String := "v=spf1 -all include:late.example redirect=other.example"

def lateDirective : Zone := Zone.empty.addTxt "example.com" ["verification=1", lateRecord]

theorem outcome_verdict_iff_lateDirective :
    Settled lateDirective.answer "example.com" ∧
      lateDirective.answer "example.com" = .ok ["verification=1", lateRecord] ∧
      select ["verification=1", lateRecord] = some lateRecord ∧
      (verdict lateDirective.answer "example.com" ⟨true, false⟩).outcome = .ok .invalid ∧
      (⟨true, false⟩ : Validations) ≤ .strict ∧
      (verdict lateDirective.answer "example.com" .strict).outcome = .ok .invalid := by
  have hsettled : Settled lateDirective.answer "example.com" := nofun
  have hanswer : lateDirective.answer "example.com" = .ok ["verification=1", lateRecord] := rfl
  have hselect : select ["verification=1", lateRecord] = some lateRecord := rfl
  have hstrict : (⟨true, false⟩ : Validations) ≤ .strict := ⟨fun _ => rfl, fun _ => rfl⟩
  have hdirectives : (Record.parse lateRecord).directives =
      [⟨.fail, .all⟩, ⟨.pass, .includes "late.example"⟩] := by
    decide +kernel
  have hunfit : (Record.parse lateRecord).Unfit ⟨true, false⟩ := by
    refine .inr (.inl ⟨rfl, ?_⟩)
    rw [hdirectives]
    exact ⟨[], ⟨.fail, .all⟩, [⟨.pass, .includes "late.example"⟩], rfl, rfl, List.cons_ne_nil _ _⟩
  obtain ⟨-, hverdict, hmore⟩ :=
    outcome_verdict_iff lateDirective.answer "example.com" ⟨true, false⟩
  have hinvalid := ((hverdict hsettled).2 _ _ hanswer hselect).2.1.2 hunfit
  refine ⟨hsettled, hanswer, hselect, hinvalid, hstrict, ?_⟩
  rcases hmore .strict hstrict with hsame | ⟨-, h⟩
  · exact hsame.trans hinvalid
  · exact h

end SenderAuth.Spf
