import Mathlib.Data.List.Nodup
import SenderAuth.Spf.Summary

/-!
The messages of a record. An error is about one term, and which warnings there are depends on nothing
but the directives and on whether there is a redirect. A record is usable when no term is wrong by itself
and no modifier comes twice.
-/
namespace SenderAuth.Spf
open Text

theorem Diagnostic.isError_eq_false_iff {d : Diagnostic} :
    d.isError = false ↔ d = .mechanismAfterAll ∨ d = .noAllOrRedirect := by
  cases d <;> simp [isError, severity, kind, DiagnosticKind.severity]

/-- The warnings that a record deserves: a directive stands behind one that matches every sender, or
there is neither such a directive nor a redirect. -/
def warnings (ds : List Directive) (redirect : Option String) : List Diagnostic :=
  if ds.dropLast.any Directive.isAll then [.mechanismAfterAll]
  else if ds.any Directive.isAll || redirect.isSome then []
  else [.noAllOrRedirect]

/-- A directive stands behind one that matches every sender. -/
def Unreached (ds : List Directive) : Prop :=
  ∃ before d after, ds = before ++ d :: after ∧ d.mechanism = .all ∧ after ≠ []

/-- No directive matches every sender, and no other record takes over at the end. -/
def OpenEnded (ds : List Directive) (redirect : Option String) : Prop :=
  (∀ d ∈ ds, d.mechanism ≠ .all) ∧ redirect = none

theorem any_of_any_dropLast {α : Type} {p : α → Bool} {xs : List α}
    (h : xs.dropLast.any p = true) : xs.any p = true := by
  obtain ⟨x, hx, hp⟩ := List.any_eq_true.1 h
  exact List.any_eq_true.2 ⟨x, List.dropLast_subset xs hx, hp⟩

theorem unreached_iff {ds : List Directive} :
    Unreached ds ↔ ∃ d ∈ ds.dropLast, d.mechanism = .all := by
  constructor
  · rintro ⟨before, d, after, rfl, hd, hafter⟩
    exact ⟨d, by simp [List.dropLast_cons_of_ne_nil hafter], hd⟩
  · rintro ⟨d, hmem, hd⟩
    obtain ⟨before, after, hsplit⟩ := List.append_of_mem hmem
    obtain ⟨init, last, rfl⟩ := (List.eq_nil_or_concat ds).resolve_left
      (List.ne_nil_of_mem (List.dropLast_subset ds hmem))
    rw [List.concat_eq_append, List.dropLast_concat] at hsplit
    exact ⟨before, d, after ++ [last], by simp [hsplit], hd, by simp⟩

theorem unreached_append_iff {ds es : List Directive} :
    Unreached (ds ++ es) ↔
      Unreached ds ∨ Unreached es ∨ (∃ d ∈ ds, d.mechanism = .all) ∧ es ≠ [] := by
  have hall : Unreached ds → ∃ d ∈ ds, d.mechanism = .all := by
    rintro ⟨before, d, after, rfl, hd, -⟩
    exact ⟨d, by simp, hd⟩
  by_cases hes : es = []
  · simp [hes, unreached_iff]
  · have hsplit : Unreached (ds ++ es) ↔ (∃ d ∈ ds, d.mechanism = .all) ∨ Unreached es := by
      simp only [unreached_iff, List.dropLast_append_of_ne_nil hes, List.mem_append, or_and_right,
        exists_or]
    rw [hsplit]
    constructor
    · rintro (h | h)
      · exact .inr (.inr ⟨h, hes⟩)
      · exact .inr (.inl h)
    · rintro (h | h | ⟨h, -⟩)
      · exact .inl (hall h)
      · exact .inr h
      · exact .inl h

theorem openEnded_append_iff {ds es : List Directive} {a b : Option String} :
    OpenEnded (ds ++ es) (a.or b) ↔ OpenEnded ds a ∧ OpenEnded es b := by
  rw [OpenEnded, List.forall_mem_append, Option.or_eq_none_iff]
  exact and_and_and_comm

theorem not_openEnded_of_unreached {ds : List Directive} {redirect : Option String}
    (h : Unreached ds) : ¬ OpenEnded ds redirect := by
  obtain ⟨before, d, after, rfl, hd, -⟩ := h
  intro hopen
  exact hopen.1 d (by simp) hd

theorem nodup_warnings (ds : List Directive) (redirect : Option String) :
    (warnings ds redirect).Nodup := by
  unfold warnings
  split
  · exact List.nodup_singleton _
  · split
    · exact List.nodup_nil
    · exact List.nodup_singleton _

theorem mechanismAfterAll_mem_warnings_iff {ds : List Directive} {redirect : Option String} :
    .mechanismAfterAll ∈ warnings ds redirect ↔ Unreached ds := by
  have hlate : Unreached ds ↔ ds.dropLast.any Directive.isAll = true := by
    simp [unreached_iff, Directive.isAll]
  by_cases h : ds.dropLast.any Directive.isAll = true
  · simp [hlate, warnings, h]
  · by_cases hend : (ds.any Directive.isAll || redirect.isSome) = true <;>
      simp [hlate, warnings, h, hend]

theorem noAllOrRedirect_mem_warnings_iff {ds : List Directive} {redirect : Option String} :
    .noAllOrRedirect ∈ warnings ds redirect ↔ OpenEnded ds redirect := by
  have hopen : OpenEnded ds redirect ↔ ¬ (ds.any Directive.isAll || redirect.isSome) = true := by
    simp [OpenEnded, Directive.isAll]
  by_cases hlate : ds.dropLast.any Directive.isAll = true
  · simp [hopen, warnings, hlate, any_of_any_dropLast hlate]
  · by_cases hend : (ds.any Directive.isAll || redirect.isSome) = true <;>
      simp [hopen, warnings, hlate, hend]

/-- The warnings still to come when some terms are read already and these directives follow. -/
def Seen.warnings (s : Seen) (ds : List Directive) (redirect : Option String) : List Diagnostic :=
  (if !s.warned && (s.all && !ds.isEmpty || ds.dropLast.any Directive.isAll) then
    [.mechanismAfterAll] else []) ++
  (if s.all || ds.any Directive.isAll || s.redirect || redirect.isSome then []
    else [.noAllOrRedirect])

theorem Seen.warnings_init (ds : List Directive) (redirect : Option String) :
    ({} : Seen).warnings ds redirect = Spf.warnings ds redirect := by
  by_cases hlate : ds.dropLast.any Directive.isAll = true
  · simp [Seen.warnings, Spf.warnings, hlate, any_of_any_dropLast hlate]
  · simp [Seen.warnings, Spf.warnings, hlate]

theorem Seen.warnings_nil (s : Seen) : s.warnings [] none = s.finalComplaint?.toList := by
  cases hall : s.all <;> cases hredirect : s.redirect <;>
    simp [Seen.finalComplaint?, Seen.warnings, hall, hredirect]

theorem Seen.warnings_directive (s : Seen) (d : Directive) (ds : List Directive)
    (redirect : Option String) :
    s.warnings (d :: ds) redirect =
      (s.complaint? (.directive d)).toList ++ (s.note (.directive d)).warnings ds redirect := by
  cases ds with
  | nil =>
    cases hall : s.all <;> cases hwarned : s.warned <;>
      simp [Seen.warnings, Seen.complaint?, Seen.note, hall, hwarned]
  | cons e es =>
    cases hall : s.all <;> cases hwarned : s.warned <;>
      simp [Seen.warnings, Seen.complaint?, Seen.note, hall, hwarned, Bool.or_assoc]

theorem Seen.warnings_mark (s : Seen) (m : Modifier) (value : String) (ds : List Directive)
    (redirect : Option String) :
    (s.mark m).warnings ds redirect =
      s.warnings ds (if m = .redirect then some value else redirect) := by
  cases m <;> simp [Seen.warnings, Seen.mark]

/-- All that can be said about a term when it is met. -/
theorem Seen.eq_of_mem_complaint? {s : Seen} {t : Term} {d : Diagnostic} (h : d ∈ s.complaint? t) :
    (d = .mechanismAfterAll ∧ ∃ e, t = .directive e) ∨
      (∃ m, d = .duplicateModifier m ∧ s.has m = true) ∨
      (∃ m text, d = .invalidArgument text .valueRequired ∧ t = .valueless m text) ∨
      t = .fault d := by
  cases t with
  | directive e =>
    simp only [complaint?, Option.mem_def, Option.ite_none_right_eq_some, Option.some.injEq] at h
    exact .inl ⟨h.2.symm, e, rfl⟩
  | modifier m value =>
    simp only [complaint?, Option.mem_def, Option.ite_none_right_eq_some, Option.some.injEq] at h
    exact .inr (.inl ⟨m, h.2.symm, h.1⟩)
  | valueless m text =>
    simp only [complaint?, Option.mem_def, Option.some.injEq] at h
    split at h
    · rename_i hm
      exact .inr (.inl ⟨m, h.symm, hm⟩)
    · exact .inr (.inr (.inl ⟨m, text, h.symm, rfl⟩))
  | unknownModifier => simp [complaint?] at h
  | fault e =>
    simp only [complaint?, Option.mem_def, Option.some.injEq] at h
    exact .inr (.inr (.inr (h ▸ rfl)))

theorem Seen.eq_of_mem_finalComplaint? {s : Seen} {d : Diagnostic} (h : d ∈ s.finalComplaint?) :
    d = .noAllOrRedirect := by
  simp only [finalComplaint?, Option.mem_def, Option.ite_none_left_eq_some, Option.some.injEq] at h
  exact h.2.symm

theorem mem_diagnose {s : Seen} {ts : List Term} {d : Diagnostic} (h : d ∈ diagnose s ts) :
    d = .noAllOrRedirect ∨ ∃ t ∈ ts, ∃ seen : Seen, d ∈ seen.complaint? t := by
  induction ts generalizing s with
  | nil =>
    rw [diagnose_nil, Option.mem_toList] at h
    exact .inl (Seen.eq_of_mem_finalComplaint? h)
  | cons t ts ih =>
    rw [diagnose_cons, List.mem_append, Option.mem_toList] at h
    rcases h with h | h
    · exact .inr ⟨t, List.mem_cons_self, s, h⟩
    · rcases ih h with h | ⟨t', ht', hseen⟩
      · exact .inl h
      · exact .inr ⟨t', List.mem_cons_of_mem _ ht', hseen⟩

def Term.FaultIsError (t : Term) : Prop := ∀ d, t = .fault d → d.isError = true

/-- Nothing that is said about a term is a warning, unless the term is a directive. -/
theorem filter_warning_complaint? (s : Seen) {t : Term} (hd : ∀ d, t ≠ .directive d)
    (hf : t.FaultIsError) :
    (s.complaint? t).toList.filter (!·.isError) = [] := by
  rw [List.filter_eq_nil_iff]
  intro d hmem
  rw [Option.mem_toList] at hmem
  rcases Seen.eq_of_mem_complaint? hmem with ⟨-, e, he⟩ | ⟨m, rfl, -⟩ | ⟨m, text, rfl, -⟩ | hfault
  · exact absurd he (hd e)
  · exact Bool.false_ne_true
  · exact Bool.false_ne_true
  · simp [hf d hfault]

theorem filter_warning_diagnose (s : Seen) {ts : List Term} (h : ∀ t ∈ ts, t.FaultIsError) :
    (diagnose s ts).filter (!·.isError) =
      s.warnings (ts.filterMap Term.directive?) (ts.findSome? (Term.value? .redirect)) := by
  induction ts generalizing s with
  | nil =>
    rw [List.filterMap_nil, List.findSome?_nil, Seen.warnings_nil, diagnose_nil,
      List.filter_eq_self]
    intro d hd
    rw [Seen.eq_of_mem_finalComplaint? (Option.mem_toList.1 hd)]
    rfl
  | cons t ts ih =>
    obtain ⟨ht, hts⟩ := List.forall_mem_cons.1 h
    rw [diagnose_cons, List.filter_append, ih (s.note t) hts]
    cases t with
    | directive d =>
      have hcomplaint : (s.complaint? (.directive d)).toList.filter (!·.isError) =
          (s.complaint? (.directive d)).toList := by
        rw [Seen.complaint?]
        split <;> rfl
      rw [hcomplaint]
      exact (s.warnings_directive d _ _).symm
    | modifier m value =>
      have hvalue : (Term.modifier m value :: ts).findSome? (Term.value? .redirect) =
          if m = .redirect then some value else ts.findSome? (Term.value? .redirect) := by
        rw [List.findSome?_cons, Term.value?]
        split <;> simp_all
      rw [filter_warning_complaint? s (by simp) ht, hvalue]
      exact s.warnings_mark m value _ _
    | valueless m text =>
      rw [filter_warning_complaint? s (by simp) ht]
      rfl
    | unknownModifier => rfl
    | fault d =>
      rw [filter_warning_complaint? s (by simp) ht]
      rfl

/-- The warnings of a record are those that its directives deserve. -/
theorem filter_warning_messages_ofTerms {ts : List Term} (h : ∀ t ∈ ts, t.FaultIsError) :
    (Record.ofTerms ts).messages.filter (!·.isError) =
      warnings (Record.ofTerms ts).directives (Record.ofTerms ts).redirect := by
  rw [← Seen.warnings_init]
  exact filter_warning_diagnose {} h

theorem mem_messages_ofTerms_iff {ts : List Term} (h : ∀ t ∈ ts, t.FaultIsError) {d : Diagnostic}
    (hd : d.isError = false) : d ∈ (Record.ofTerms ts).messages ↔
      d ∈ warnings (Record.ofTerms ts).directives (Record.ofTerms ts).redirect := by
  rw [← filter_warning_messages_ofTerms h, List.mem_filter, hd]
  simp

theorem count_messages_ofTerms_of_mem {ts : List Term} (h : ∀ t ∈ ts, t.FaultIsError) {d : Diagnostic}
    (hd : d.isError = false) (hmem : d ∈ (Record.ofTerms ts).messages) :
    (Record.ofTerms ts).messages.count d = 1 := by
  have hkept : (!d.isError) = true := by rw [hd]; rfl
  rw [← List.count_filter (p := (!·.isError)) hkept, filter_warning_messages_ofTerms h]
  exact List.count_eq_one_of_mem (nodup_warnings _ _) ((mem_messages_ofTerms_iff h hd).1 hmem)

theorem mechanismAfterAll_mem_ofTerms_iff {ts : List Term} (h : ∀ t ∈ ts, t.FaultIsError) :
    .mechanismAfterAll ∈ (Record.ofTerms ts).messages ↔ Unreached (Record.ofTerms ts).directives :=
  (mem_messages_ofTerms_iff h rfl).trans mechanismAfterAll_mem_warnings_iff

theorem noAllOrRedirect_mem_ofTerms_iff {ts : List Term} (h : ∀ t ∈ ts, t.FaultIsError) :
    .noAllOrRedirect ∈ (Record.ofTerms ts).messages ↔
      OpenEnded (Record.ofTerms ts).directives (Record.ofTerms ts).redirect :=
  (mem_messages_ofTerms_iff h rfl).trans noAllOrRedirect_mem_warnings_iff

/-- The complaint about the end of a record comes at the end. -/
theorem getLast?_diagnose {s : Seen} {ts : List Term} (hf : ∀ t ∈ ts, t.FaultIsError)
    (h : .noAllOrRedirect ∈ diagnose s ts) : (diagnose s ts).getLast? = some .noAllOrRedirect := by
  induction ts generalizing s with
  | nil =>
    rw [diagnose_nil, Option.mem_toList] at h
    rw [diagnose_nil, Option.mem_def.1 h]
    rfl
  | cons t ts ih =>
    obtain ⟨ht, hts⟩ := List.forall_mem_cons.1 hf
    have hnot : .noAllOrRedirect ∉ (s.complaint? t).toList := by
      intro hmem
      rcases Seen.eq_of_mem_complaint? (Option.mem_toList.1 hmem) with
        ⟨hd, -⟩ | ⟨m, hd, -⟩ | ⟨m, text, hd, -⟩ | hfault
      · cases hd
      · cases hd
      · cases hd
      · exact Bool.false_ne_true (ht _ hfault)
    have hrest := (List.mem_append.1 h).resolve_left hnot
    rw [diagnose_cons, List.getLast?_append, ih hts hrest]
    rfl

/-- A term that is wrong whatever comes before it. -/
def Term.isWrong : Term → Bool
  | directive _ | modifier .. | unknownModifier => false
  | valueless .. => true
  | fault d => d.isError

/-- There is nothing wrong to be told about a term unless it is wrong by itself or a modifier that came
before. -/
theorem Seen.isError_complaint?_eq_false_iff (s : Seen) (t : Term) :
    (∀ d ∈ (s.complaint? t).toList, d.isError = false) ↔
      t.isWrong = false ∧ ∀ m value, t = .modifier m value → s.has m = false := by
  cases t with
  | directive d =>
    simp [complaint?, Term.isWrong, Diagnostic.isError_eq_false_iff]
  | modifier m value =>
    cases h : s.has m <;> simp [complaint?, Term.isWrong, h, Diagnostic.isError_eq_false_iff]
  | valueless m text =>
    cases h : s.has m <;> simp [complaint?, Term.isWrong, h, Diagnostic.isError_eq_false_iff]
  | unknownModifier => simp [complaint?, Term.isWrong]
  | fault d => simp [complaint?, Term.isWrong]

def Seen.room (s : Seen) (m : Modifier) : Nat := if s.has m then 0 else 1

theorem Seen.length_values_cons_le_room_iff (s : Seen) (t : Term) (ts : List Term) :
    (∀ m, ((t :: ts).filterMap (Term.value? m)).length ≤ s.room m) ↔
      (∀ m value, t = .modifier m value → s.has m = false) ∧
        ∀ m, (ts.filterMap (Term.value? m)).length ≤ (s.note t).room m := by
  cases t with
  | modifier m value =>
    constructor
    · intro h
      have hm := h m
      simp only [List.filterMap_cons, Term.value?_modifier, if_true, List.length_cons] at hm
      have hnew : s.has m = false := by
        cases hold : s.has m with
        | false => rfl
        | true => simp [room, hold] at hm
      refine ⟨?_, fun n => ?_⟩
      · rintro _ _ ⟨⟩
        exact hnew
      · by_cases hn : m = n
        · subst hn
          simpa [room, hnew] using hm
        · simpa [room, hn, List.filterMap_cons] using h n
    · rintro ⟨hnew, hrest⟩ n
      by_cases hn : m = n
      · subst hn
        simpa [room, hnew m value rfl, List.filterMap_cons] using hrest m
      · simpa [room, hn, List.filterMap_cons] using hrest n
  | directive d => simp [room, List.filterMap_cons]
  | valueless m text => simp [note, List.filterMap_cons]
  | unknownModifier => simp [note, List.filterMap_cons]
  | fault d => simp [note, List.filterMap_cons]

/-- Nothing is wrong with a list of terms when no term is wrong by itself and no modifier comes twice. -/
theorem isError_diagnose_eq_false_iff (s : Seen) (ts : List Term) :
    (∀ d ∈ diagnose s ts, d.isError = false) ↔
      (∀ t ∈ ts, t.isWrong = false) ∧ ∀ m, (ts.filterMap (Term.value? m)).length ≤ s.room m := by
  induction ts generalizing s with
  | nil =>
    have hfinal : ∀ d ∈ diagnose s [], d.isError = false := by
      intro d hd
      rw [diagnose_nil, Option.mem_toList] at hd
      exact Diagnostic.isError_eq_false_iff.2 (.inr (Seen.eq_of_mem_finalComplaint? hd))
    exact iff_of_true hfinal ⟨nofun, fun m => Nat.zero_le _⟩
  | cons t ts ih =>
    rw [diagnose_cons, List.forall_mem_append, s.isError_complaint?_eq_false_iff, ih (s.note t),
      List.forall_mem_cons, s.length_values_cons_le_room_iff]
    constructor
    · rintro ⟨⟨ht, hnew⟩, hts, hrest⟩
      exact ⟨⟨ht, hts⟩, hnew, hrest⟩
    · rintro ⟨⟨ht, hts⟩, hnew, hrest⟩
      exact ⟨⟨ht, hnew⟩, hts, hrest⟩

theorem Record.valid_ofTerms_iff (ts : List Term) :
    (Record.ofTerms ts).valid = true ↔ (∀ t ∈ ts, t.isWrong = false) ∧
      ∀ m, (ts.filterMap (Term.value? m)).length ≤ 1 := by
  have hroom : ∀ m, ({} : Seen).room m = 1 := fun m => by cases m <;> rfl
  have hmessages := isError_diagnose_eq_false_iff {} ts
  simp only [hroom] at hmessages
  simpa [Record.valid, Record.ofTerms] using hmessages

theorem messages_ofTerms {ts : List Term}
    (hplain : ∀ t ∈ ts, (∃ d, t = .directive d) ∨ ∃ m value, t = .modifier m value)
    (honce : ∀ m, (ts.filterMap (Term.value? m)).length ≤ 1) :
    (Record.ofTerms ts).messages =
      warnings (Record.ofTerms ts).directives (Record.ofTerms ts).redirect := by
  have hvalid : (Record.ofTerms ts).valid = true := by
    refine (Record.valid_ofTerms_iff ts).2 ⟨fun t ht => ?_, honce⟩
    rcases hplain t ht with ⟨d, rfl⟩ | ⟨m, value, rfl⟩ <;> rfl
  have hwarning : (Record.ofTerms ts).messages.filter (!·.isError) = (Record.ofTerms ts).messages :=
    List.filter_eq_self.2 (List.all_eq_true.1 hvalid)
  have hfault : ∀ t ∈ ts, t.FaultIsError := by
    rintro _ ht d rfl
    rcases hplain _ ht with ⟨e, he⟩ | ⟨m, value, hm⟩
    · cases he
    · cases hm
  rw [← hwarning, filter_warning_messages_ofTerms hfault]

theorem Directive.read_eq_error {term : List Char} {d : Diagnostic}
    (h : Directive.read term = .error d) :
    d = .unknownMechanism (String.ofList (Qualifier.strip term).2) ∨
      ∃ fault, d = .invalidArgument (String.ofList term) fault := by
  simp only [Directive.read] at h
  split at h
  · exact .inl (Except.error.inj h).symm
  · split at h
    · cases h
    · exact .inr ⟨_, (Except.error.inj h).symm⟩

/-- What can be wrong with a term by itself. -/
theorem Term.read_eq_fault {term : List Char} {d : Diagnostic} (h : Term.read term = .fault d) :
    d = .unknownMechanism (String.ofList (Qualifier.strip term).2) ∨
      ∃ fault, d = .invalidArgument (String.ofList term) fault :=
  Directive.read_eq_error (Term.read_eq_fault_iff.1 h).2

theorem Term.isError_of_read_eq_fault {term : List Char} {d : Diagnostic}
    (h : Term.read term = .fault d) : d.isError = true := by
  rcases read_eq_fault h with rfl | ⟨fault, rfl⟩ <;> rfl

theorem faultIsError_of_mem_map_read {terms : List (List Char)} :
    ∀ t ∈ terms.map Term.read, t.FaultIsError := by
  rintro t ht d rfl
  obtain ⟨term, -, hread⟩ := List.mem_map.1 ht
  exact Term.isError_of_read_eq_fault hread

theorem filter_warning_messages_parse {s : String} {rest : List Char}
    (h : afterVersion? (trim s.toList) = some rest) :
    (Record.parse s).messages.filter (!·.isError) =
      warnings (Record.parse s).directives (Record.parse s).redirect := by
  rw [Record.parse_eq, h]
  exact filter_warning_messages_ofTerms faultIsError_of_mem_map_read

/-- The version of a text is complained about just when it has no version tag. -/
theorem invalidVersion_notMem_parse_iff {s : String} :
    (∀ found, .invalidVersion found ∉ (Record.parse s).messages) ↔
      (afterVersion? (trim s.toList)).isSome = true := by
  cases h : afterVersion? (trim s.toList) with
  | none =>
    simp [Record.parse_eq, h, Record.unversioned]
  | some rest =>
    simp only [Option.isSome_some, iff_true]
    intro found hmem
    rw [Record.parse_eq, h] at hmem
    rcases mem_diagnose hmem with hd | ⟨t, ht, seen, hd⟩
    · cases hd
    · obtain ⟨w, -, rfl⟩ := List.mem_map.1 ht
      rcases Seen.eq_of_mem_complaint? hd with ⟨hd, -⟩ | ⟨m, hd, -⟩ | ⟨m, text, hd, -⟩ | hfault
      · cases hd
      · cases hd
      · cases hd
      · rcases Term.read_eq_fault hfault with hd | ⟨fault, hd⟩ <;> cases hd

/-- The messages of a record whose version is understood tell what the record is. -/
structure Record.Diagnosed (r : Record) : Prop where
  versioned : ∀ found, .invalidVersion found ∉ r.messages
  unreached : .mechanismAfterAll ∈ r.messages ↔ Unreached r.directives
  unreached_once : .mechanismAfterAll ∈ r.messages → r.messages.count .mechanismAfterAll = 1
  openEnded : .noAllOrRedirect ∈ r.messages ↔ OpenEnded r.directives r.redirect
  openEnded_once : .noAllOrRedirect ∈ r.messages → r.messages.count .noAllOrRedirect = 1
  openEnded_last : .noAllOrRedirect ∈ r.messages → r.messages.getLast? = some .noAllOrRedirect
  apart : ¬ (.mechanismAfterAll ∈ r.messages ∧ .noAllOrRedirect ∈ r.messages)
  valid : r.valid = true ↔ ∀ d ∈ r.messages, d.severity ≠ .error

theorem parse_diagnosed (s : String) :
    (∃ found, Record.parse s = ⟨[], none, none, [.invalidVersion found]⟩ ∧
      (Record.parse s).valid = false) ∨ (Record.parse s).Diagnosed := by
  cases hrest : afterVersion? (trim s.toList) with
  | none =>
    refine .inl ⟨String.ofList ((words s.toList).headD []), ?_⟩
    rw [Record.parse_eq, hrest]
    exact ⟨rfl, rfl⟩
  | some rest =>
    have hversioned := invalidVersion_notMem_parse_iff (s := s).2 (by rw [hrest]; rfl)
    have hfault : ∀ t ∈ (words rest).map Term.read, t.FaultIsError := faultIsError_of_mem_map_read
    rw [Record.parse_eq, hrest] at hversioned ⊢
    refine .inr
      { versioned := hversioned
        unreached := mechanismAfterAll_mem_ofTerms_iff hfault
        unreached_once := count_messages_ofTerms_of_mem hfault rfl
        openEnded := noAllOrRedirect_mem_ofTerms_iff hfault
        openEnded_once := count_messages_ofTerms_of_mem hfault rfl
        openEnded_last := getLast?_diagnose hfault
        apart := ?_
        valid := by simp [Record.valid, Diagnostic.isError] }
    rw [mechanismAfterAll_mem_ofTerms_iff hfault, noAllOrRedirect_mem_ofTerms_iff hfault]
    exact fun hboth => not_openEnded_of_unreached hboth.1 hboth.2

end SenderAuth.Spf
