import SenderAuth.Proofs.Record.Roles

/-!
Modifiers without a meaning. A record is the same without them, wherever they stand, and other terms cannot be
left out without a trace.
-/
namespace SenderAuth.Spf
open Text

/-- The second list is the first with modifiers without a meaning put in, in any places. -/
inductive Inserts : List (List Char) → List (List Char) → Prop
  | nil : Inserts [] []
  | keep (w : List Char) {ts us : List (List Char)} (h : Inserts ts us) : Inserts (w :: ts) (w :: us)
  | insert {w : List Char} {ts us : List (List Char)} (hw : IsUnknownModifier w) (h : Inserts ts us) :
      Inserts ts (w :: us)

/-- Nothing is said about a modifier without a meaning, and nothing is remembered of it. -/
theorem diagnose_unknownModifier_cons (s : Seen) (ts : List Term) :
    diagnose s (.unknownModifier :: ts) = diagnose s ts := rfl

namespace Inserts
variable {ts us : List (List Char)}

theorem sublist (h : Inserts ts us) : ts.Sublist us := by
  induction h with
  | nil => exact .slnil
  | keep w _ ih => exact ih.cons_cons w
  | insert _ _ ih => exact ih.cons _

theorem filterMap_map_read {α : Type} {f : Term → Option α} (hf : f .unknownModifier = none)
    (h : Inserts ts us) : (us.map Term.read).filterMap f = (ts.map Term.read).filterMap f := by
  induction h with
  | nil => rfl
  | keep w _ ih => rw [List.map_cons, List.map_cons, List.filterMap_cons, List.filterMap_cons, ih]
  | insert hw _ ih =>
    rw [List.map_cons, Term.read_eq_unknownModifier_iff.2 hw, List.filterMap_cons_none hf, ih]

theorem diagnose_map_read (s : Seen) (h : Inserts ts us) :
    diagnose s (us.map Term.read) = diagnose s (ts.map Term.read) := by
  induction h generalizing s with
  | nil => rfl
  | keep w _ ih => rw [List.map_cons, List.map_cons, diagnose_cons, diagnose_cons, ih]
  | insert hw _ ih =>
    rw [List.map_cons, Term.read_eq_unknownModifier_iff.2 hw, diagnose_unknownModifier_cons, ih]

theorem ofTerms_map_read (h : Inserts ts us) :
    Record.ofTerms (us.map Term.read) = Record.ofTerms (ts.map Term.read) := by
  have hvalue (m : Modifier) : (us.map Term.read).findSome? (Term.value? m) =
      (ts.map Term.read).findSome? (Term.value? m) := by
    rw [← List.head?_filterMap, ← List.head?_filterMap, h.filterMap_map_read rfl]
  rw [Record.ofTerms, Record.ofTerms, h.filterMap_map_read rfl, hvalue, hvalue, h.diagnose_map_read]

/-- What is left out of a list is without a meaning when as many terms with a meaning are in the rest. -/
theorem of_sublist (h : ts.Sublist us)
    (hcount : us.countP (¬ IsUnknownModifier ·) = ts.countP (¬ IsUnknownModifier ·)) :
    Inserts ts us := by
  induction h with
  | slnil => exact .nil
  | @cons ts us w h ih =>
    have hle := h.countP_le (p := (¬ IsUnknownModifier ·))
    by_cases hw : IsUnknownModifier w
    · rw [List.countP_cons_of_neg (by simpa using hw)] at hcount
      exact .insert hw (ih hcount)
    · rw [List.countP_cons_of_pos (by simpa using hw)] at hcount
      omega
  | @cons_cons ts us w h ih =>
    rw [List.countP_cons, List.countP_cons] at hcount
    exact .keep w (ih (by omega))

end Inserts

/-- How many terms with a meaning there are can be told from the record. -/
theorem countP_eq_of_ofTerms_eq {ts us : List (List Char)}
    (h : Record.ofTerms (us.map Term.read) = Record.ofTerms (ts.map Term.read)) :
    us.countP (¬ IsUnknownModifier ·) = ts.countP (¬ IsUnknownModifier ·) := by
  have hts := length_eq_ofTerms (@faultIsError_of_mem_map_read ts)
  have hus := length_eq_ofTerms (@faultIsError_of_mem_map_read us)
  rw [count_unknownModifier_map_read, List.length_map] at hts hus
  rw [h] at hus
  have hsplit (l : List (List Char)) :
      l.length = l.countP (IsUnknownModifier ·) + l.countP (¬ IsUnknownModifier ·) := by
    simpa using l.length_eq_countP_add_countP (IsUnknownModifier ·)
  rw [hsplit] at hts hus
  omega

/-- Modifiers without a meaning leave no trace in a record, wherever they stand among its terms. -/
theorem parse_spell_of_inserts {ts us : List (List Char)} (hword : ∀ w ∈ us, IsWord w)
    (h : Inserts ts us) : Record.parse (spell us) = Record.parse (spell ts) := by
  have hts : ∀ w ∈ ts, IsWord w := fun w hw => hword w (h.sublist.mem hw)
  rw [parse_spell hword, parse_spell hts, h.ofTerms_map_read]

def knownTerms : List (List Char) :=
  ["-all".toList, "redirect=a".toList, "x".toList, "Redirect=b".toList, "a:b=c/24".toList]

def crowdedTerms : List (List Char) :=
  ["V=spf1".toList, "-all".toList, "redirect=a".toList, "exps=:-all/24".toList, "x".toList,
    "Redirect=b".toList, "UNKNOWN=".toList, "mxa==include:a".toList, "a:b=c/24".toList]

theorem inserts_crowdedTerms : Inserts knownTerms crowdedTerms :=
  .insert (by decide) (.keep _ (.keep _ (.insert (by decide) (.keep _ (.keep _
    (.insert (by decide) (.insert (by decide) (.keep _ .nil))))))))

theorem parse_spell_of_inserts_crowdedTerms :
    (∀ w ∈ crowdedTerms, IsWord w) ∧ Inserts knownTerms crowdedTerms ∧
      Record.parse (spell crowdedTerms) = Record.parse (spell knownTerms) := by
  have hword : ∀ w ∈ crowdedTerms, IsWord w := by decide
  exact ⟨hword, inserts_crowdedTerms, parse_spell_of_inserts hword inserts_crowdedTerms⟩

/-- No other terms can be left out of a record without a trace. -/
theorem parse_spell_eq_iff_of_sublist {ts us : List (List Char)} (hword : ∀ w ∈ us, IsWord w)
    (hsub : ts.Sublist us) : Record.parse (spell us) = Record.parse (spell ts) ↔ Inserts ts us := by
  rw [parse_spell hword, parse_spell fun w hw => hword w (hsub.mem hw)]
  exact ⟨fun h => .of_sublist hsub (countP_eq_of_ofTerms_eq h), fun h => h.ofTerms_map_read⟩

end SenderAuth.Spf
