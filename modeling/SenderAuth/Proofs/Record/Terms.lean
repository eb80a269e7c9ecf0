import SenderAuth.Proofs.Record.Version
import SenderAuth.Spf.Grammar

/-!
A record as a matter of its terms. Behind the version tag a text counts only for the words that it has, and
what is read from the words is a function of each of them. So the record of two texts, one behind the other,
is put together from their two records.
-/
namespace SenderAuth.Spf
open Text

theorem parse_eq_ofTerms_words {lead tag body trail : List Char} {s : String}
    (hs : s.toList = lead ++ (tag ++ (body ++ trail))) (hlead : ∀ c ∈ lead, isBlank c = true)
    (htag : lowerAscii tag = version) (hbody : ∀ c ∈ body.head?, isAsciiBlank c = true)
    (htrail : ∀ c ∈ trail, isBlank c = true) :
    Record.parse s = Record.ofTerms ((words body).map Term.read) := by
  rw [Record.parse_eq, hs, afterVersion?_trim hlead htag hbody htrail]
  simp only [words_trimEnd]

/-- Where the version is understood, the terms are the words behind the first one. -/
theorem parse_eq_ofTerms_tail {s : String}
    (h : ∀ found, .invalidVersion found ∉ (Record.parse s).messages) :
    Record.parse s = Record.ofTerms ((words s.toList).tail.map Term.read) := by
  obtain ⟨rest, hrest⟩ := Option.isSome_iff_exists.1 (invalidVersion_notMem_parse_iff.1 h)
  obtain ⟨tag, hcut, htag, hascii⟩ := afterVersion?_eq_some_iff.1 hrest
  have hblank : ∀ c ∈ rest.head?, isBlank c = true := fun c hc => isBlank_of_isAsciiBlank (hascii c hc)
  have hwords : words s.toList = tag :: words rest := by
    rw [← words_trimStart, ← words_trimEnd, ← trim, hcut]
    exact words_append_of_no_blank (ne_nil_of_lowerAscii_eq_version htag)
      (isBlank_of_lowerAscii_eq_version htag) hblank
  rw [Record.parse_eq, hrest, hwords, List.tail_cons]

theorem Term.read_eq_unknownModifier_iff {cs : List Char} :
    read cs = unknownModifier ↔ IsUnknownModifier cs := by
  have hread : read cs = unknownModifier ↔ ∃ name value, splitModifier? cs = some (name, value) ∧
      Modifier.ofName? (folded name) = none := by
    unfold read
    cases splitModifier? cs with
    | none => cases Directive.read cs <;> simp
    | some p => grind
  simp only [hread, splitModifier?_eq_some_iff, Option.eq_none_iff_forall_ne_some, ne_eq,
    MechanismKind.ofName?_eq_some_iff, Modifier.ofName?_eq_some_iff, IsUnknownModifier,
    List.all_eq_true, and_assoc]

instance (cs : List Char) : Decidable (IsUnknownModifier cs) :=
  decidable_of_iff _ Term.read_eq_unknownModifier_iff

theorem isSpf_spell (terms : List (List Char)) : isSpf (spell terms) = true := by
  have hstart : trimStart (version ++ terms.flatMap (' ' :: ·)) = version ++ terms.flatMap (' ' :: ·) :=
    trimStart_of_head (by simp [version, isBlank, whiteSpace, CodeRanges.has])
  rw [isSpf, spell, String.toList_ofList, hstart, Option.isSome_iff_exists]
  exact ⟨_, afterVersion?_eq_some_iff.2 ⟨version, rfl, rfl, head?_flatMap_blank terms⟩⟩

theorem parse_spell {terms : List (List Char)} (h : ∀ w ∈ terms, IsWord w) :
    Record.parse (spell terms) = Record.ofTerms (terms.map Term.read) := by
  have hs : (spell terms).toList = [] ++ (version ++ (terms.flatMap (' ' :: ·) ++ [])) := by
    simp [spell]
  rw [parse_eq_ofTerms_words hs nofun rfl (head?_flatMap_blank terms) nofun, words_flatMap_blank h]

/-- Terms in another order give the directives in another order. -/
theorem perm_directives_of_perm {ts us : List (List Char)} (hts : ∀ w ∈ ts, IsWord w)
    (hperm : ts.Perm us) :
    (Record.parse (spell ts)).directives.Perm (Record.parse (spell us)).directives := by
  have hus : ∀ w ∈ us, IsWord w := fun w hw => hts w (hperm.mem_iff.2 hw)
  rw [parse_spell hts, parse_spell hus]
  exact (hperm.map Term.read).filterMap Term.directive?

theorem afterVersion?_versioned (s : String) :
    afterVersion? (trim ("v=spf1 " ++ s).toList) = some (trimEnd (' ' :: s.toList)) := by
  have htext : ("v=spf1 " ++ s).toList = [] ++ (version ++ (' ' :: s.toList ++ [])) := by
    simp [version]
  rw [htext]
  exact afterVersion?_trim nofun rfl (by simp [isAsciiBlank]) nofun

theorem parse_versioned (s : String) :
    Record.parse ("v=spf1 " ++ s) = Record.ofTerms ((words s.toList).map Term.read) := by
  simp only [Record.parse_eq, afterVersion?_versioned, words_trimEnd]
  rw [words_blank_cons (by decide)]

theorem words_append_space (s t : String) :
    words (s ++ " " ++ t).toList = words s.toList ++ words t.toList := by
  have hs : (s ++ " " ++ t).toList = s.toList ++ ' ' :: t.toList := by simp
  rw [hs, words_append_blank (by decide)]

theorem isSome_findSome?_value?_iff {m : Modifier} {ts : List Term} :
    (ts.findSome? (Term.value? m)).isSome = true ↔ 0 < (ts.filterMap (Term.value? m)).length := by
  rw [← List.head?_filterMap, List.isSome_head?, List.length_pos_iff]

/-- Two lists of terms are usable one after the other when both are and no modifier is in both. -/
theorem Record.valid_ofTerms_append_iff (ts us : List Term) :
    (Record.ofTerms (ts ++ us)).valid = true ↔
      (Record.ofTerms ts).valid = true ∧ (Record.ofTerms us).valid = true ∧
      ∀ m, ¬ ((ts.findSome? (Term.value? m)).isSome = true ∧
        (us.findSome? (Term.value? m)).isSome = true) := by
  have hvalues : ∀ m : Modifier, ((ts ++ us).filterMap (Term.value? m)).length ≤ 1 ↔
      (ts.filterMap (Term.value? m)).length ≤ 1 ∧ (us.filterMap (Term.value? m)).length ≤ 1 ∧
      ¬ ((ts.findSome? (Term.value? m)).isSome = true ∧
        (us.findSome? (Term.value? m)).isSome = true) := by
    intro m
    rw [isSome_findSome?_value?_iff, isSome_findSome?_value?_iff, List.filterMap_append,
      List.length_append]
    omega
  simp only [Record.valid_ofTerms_iff, List.forall_mem_append, hvalues, forall_and]
  constructor
  · rintro ⟨⟨hts, hus⟩, htone, huone, hapart⟩
    exact ⟨⟨hts, htone⟩, ⟨hus, huone⟩, hapart⟩
  · rintro ⟨⟨hts, htone⟩, ⟨hus, huone⟩, hapart⟩
    exact ⟨⟨hts, hus⟩, htone, huone, hapart⟩

/-- The record is made of two others, with the terms of the one before those of the other. -/
structure Record.Joins (p q r : Record) : Prop where
  directives : r.directives = p.directives ++ q.directives
  redirect : r.redirect = p.redirect.or q.redirect
  explanation : r.explanation = p.explanation.or q.explanation
  valid : r.valid = true ↔ p.valid = true ∧ q.valid = true ∧
    ¬ (p.redirect.isSome = true ∧ q.redirect.isSome = true) ∧
    ¬ (p.explanation.isSome = true ∧ q.explanation.isSome = true)
  unreached : .mechanismAfterAll ∈ r.messages ↔
    .mechanismAfterAll ∈ p.messages ∨ .mechanismAfterAll ∈ q.messages ∨
      (∃ d ∈ p.directives, d.mechanism = .all) ∧ q.directives ≠ []
  openEnded : .noAllOrRedirect ∈ r.messages ↔
    .noAllOrRedirect ∈ p.messages ∧ .noAllOrRedirect ∈ q.messages

theorem joins_ofTerms {ts us : List Term} (hts : ∀ t ∈ ts, t.FaultIsError)
    (hus : ∀ t ∈ us, t.FaultIsError) :
    Record.Joins (Record.ofTerms ts) (Record.ofTerms us) (Record.ofTerms (ts ++ us)) := by
  have hfault : ∀ t ∈ ts ++ us, t.FaultIsError := List.forall_mem_append.2 ⟨hts, hus⟩
  have hdirectives : (Record.ofTerms (ts ++ us)).directives =
      (Record.ofTerms ts).directives ++ (Record.ofTerms us).directives := List.filterMap_append
  have hredirect : (Record.ofTerms (ts ++ us)).redirect =
      (Record.ofTerms ts).redirect.or (Record.ofTerms us).redirect := List.findSome?_append
  refine
    { directives := hdirectives
      redirect := hredirect
      explanation := List.findSome?_append
      valid := ?_
      unreached := ?_
      openEnded := ?_ }
  · rw [Record.valid_ofTerms_append_iff, Modifier.forall_iff]
    rfl
  · rw [mechanismAfterAll_mem_ofTerms_iff hts, mechanismAfterAll_mem_ofTerms_iff hus,
      mechanismAfterAll_mem_ofTerms_iff hfault, hdirectives]
    exact unreached_append_iff
  · rw [noAllOrRedirect_mem_ofTerms_iff hts, noAllOrRedirect_mem_ofTerms_iff hus,
      noAllOrRedirect_mem_ofTerms_iff hfault, hdirectives, hredirect]
    exact openEnded_append_iff

/-- Reading is compositional. -/
theorem joins_parse (s t : String) :
    Record.Joins (Record.parse ("v=spf1 " ++ s)) (Record.parse ("v=spf1 " ++ t))
      (Record.parse ("v=spf1 " ++ s ++ " " ++ t)) := by
  have htext : "v=spf1 " ++ s ++ " " ++ t = "v=spf1 " ++ (s ++ " " ++ t) := by
    simp [String.append_assoc]
  rw [htext, parse_versioned, parse_versioned, parse_versioned, words_append_space, List.map_append]
  exact joins_ofTerms faultIsError_of_mem_map_read faultIsError_of_mem_map_read

end SenderAuth.Spf
