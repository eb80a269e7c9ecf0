import SenderAuth.Proofs.Record.NormalForm

/-!
What a record can hold. Whatever the text, what is read from it is well formed, and any record that is well
formed is what its canonical text is read as.
-/
namespace SenderAuth.Spf
open Text

/-- A text makes no double with a separator behind it when it holds no double and does not end in one. -/
theorem undoubled_concat_iff {sep : Char} {cs : List Char} :
    Undoubled sep (cs ++ [sep]) ↔ ¬ [sep, sep] <:+: cs ∧ cs.getLast? ≠ some sep := by
  have hinner : Undoubled sep cs ↔ ¬ [sep, sep] <:+: cs := by
    rw [Undoubled, List.isChain_iff_forall_rel_of_append_cons_cons]
    constructor
    · rintro h ⟨before, after, rfl⟩
      have hdouble : before ++ [sep, sep] ++ after = before ++ sep :: sep :: after := by simp
      exact h hdouble ⟨rfl, rfl⟩
    · rintro h c d before after rfl ⟨rfl, rfl⟩
      exact h ⟨before, after, by simp⟩
  have hjoint : (∀ c ∈ cs.getLast?, ∀ d ∈ [sep].head?, ¬ (c = sep ∧ d = sep)) ↔
      cs.getLast? ≠ some sep := by
    constructor
    · intro h hlast
      exact h sep hlast sep rfl ⟨rfl, rfl⟩
    · rintro h c hc d - ⟨rfl, -⟩
      exact h hc
  rw [← hinner, ← hjoint, Undoubled, List.isChain_append]
  exact ⟨fun h => ⟨h.1, h.2.2⟩, fun h => ⟨h.1, List.isChain_singleton sep, h.2⟩⟩

/-- What the values of a record are like. -/
structure Record.WellFormed (r : Record) : Prop where
  mechanism : ∀ d ∈ r.directives, d.mechanism.WellFormed
  noDoubleSlash : ∀ d ∈ r.directives, ∀ t ∈ d.mechanism.target?, ∀ x ∈ t.domain,
    ¬ ['/', '/'] <:+: x.toList
  noSlashAtEnd : ∀ d ∈ r.directives, ∀ t ∈ d.mechanism.target?, ∀ x ∈ t.domain,
    x.toList.getLast? ≠ some '/'
  slashBeforeLength : ∀ d ∈ r.directives, ∀ t ∈ d.mechanism.target?, ∀ x ∈ t.domain,
    '/' ∈ x.toList → t.cidr4.isSome = true
  redirect : ∀ x ∈ r.redirect, IsValue x
  explanation : ∀ x ∈ r.explanation, IsValue x

namespace Record

theorem wellFormed_iff {r : Record} : r.WellFormed ↔
    (∀ d ∈ r.directives, d.mechanism.WellFormed ∧ ∀ t ∈ d.mechanism.target?, t.Separable) ∧
    (∀ x ∈ r.redirect, IsValue x) ∧ ∀ x ∈ r.explanation, IsValue x := by
  constructor
  · intro h
    refine ⟨fun d hd => ⟨h.mechanism d hd, fun t ht x hx hslash => ?_⟩, h.redirect, h.explanation⟩
    exact ⟨h.slashBeforeLength d hd t ht x hx hslash,
      undoubled_concat_iff.2 ⟨h.noDoubleSlash d hd t ht x hx, h.noSlashAtEnd d hd t ht x hx⟩⟩
  · rintro ⟨hdirectives, hredirect, hexplanation⟩
    have hslashes : ∀ d ∈ r.directives, ∀ t ∈ d.mechanism.target?, ∀ x ∈ t.domain,
        ¬ ['/', '/'] <:+: x.toList ∧ x.toList.getLast? ≠ some '/' := by
      intro d hd t ht x hx
      apply undoubled_concat_iff.1
      by_cases hslash : '/' ∈ x.toList
      · exact ((hdirectives d hd).2 t ht x hx hslash).2
      · exact undoubled_append_singleton hslash
    exact
      { mechanism := fun d hd => (hdirectives d hd).1
        noDoubleSlash := fun d hd t ht x hx => (hslashes d hd t ht x hx).1
        noSlashAtEnd := fun d hd t ht x hx => (hslashes d hd t ht x hx).2
        slashBeforeLength := fun d hd t ht x hx hslash => ((hdirectives d hd).2 t ht x hx hslash).1
        redirect := hredirect
        explanation := hexplanation }

theorem wellFormed_unversioned (found : String) : (unversioned found).WellFormed :=
  ⟨nofun, nofun, nofun, nofun, nofun, nofun⟩

theorem wellFormed_ofTerms_map_read {words : List (List Char)}
    (hblank : ∀ w ∈ words, ∀ c ∈ w, isBlank c = false) :
    (ofTerms (words.map Term.read)).WellFormed :=
  wellFormed_iff.2 (readable_of_eq_ofTerms hblank rfl)

end Record

/-- Every record is well formed, be it usable or not. -/
theorem wellFormed_parse (s : String) : (Record.parse s).WellFormed := by
  rw [Record.parse_eq]
  split
  · exact Record.wellFormed_ofTerms_map_read fun w hw => isBlank_of_mem_words hw
  · exact Record.wellFormed_unversioned _

/-- To be well formed is all that it takes to be read from a text. -/
theorem parse_render_of_wellFormed {r : Record} (h : r.WellFormed) :
    Record.parse r.render = { r with messages := warnings r.directives r.redirect } := by
  obtain ⟨hdirectives, hredirect, hexplanation⟩ := Record.wellFormed_iff.1 h
  exact parse_of_isText hdirectives hredirect hexplanation r.isText_render

end SenderAuth.Spf
