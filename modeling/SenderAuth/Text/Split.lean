/-!
Cutting a text in two at a separator. Each cut is described by an equivalence: the two parts put
together again with the separator give the text, and the side the search starts from holds none.
-/
namespace SenderAuth.Text

def splitFirst? (sep : Char) : List Char → Option (List Char × List Char)
  | [] => none
  | c :: cs =>
    if c = sep then some ([], cs)
    else (splitFirst? sep cs).map fun (before, after) => (c :: before, after)

theorem splitFirst?_eq_none_iff {sep : Char} {cs : List Char} :
    splitFirst? sep cs = none ↔ sep ∉ cs := by
  induction cs with
  | nil => simp [splitFirst?]
  | cons c cs ih =>
    by_cases h : c = sep
    · simp [splitFirst?, h]
    · simp [splitFirst?, h, ih, Ne.symm h]

theorem splitFirst?_eq_some_iff {sep : Char} {cs before after : List Char} :
    splitFirst? sep cs = some (before, after) ↔ cs = before ++ sep :: after ∧ sep ∉ before := by
  induction cs generalizing before with
  | nil => simp [splitFirst?]
  | cons c cs ih =>
    by_cases h : c = sep
    · subst h
      cases before with
      | nil => simp [splitFirst?, eq_comm]
      | cons b bs => simp +contextual [splitFirst?, eq_comm]
    · cases before with
      | nil => simp [splitFirst?, h]
      | cons b bs =>
        simp only [splitFirst?, h, if_false, Option.map_eq_some_iff, Prod.exists, Prod.mk.injEq,
          List.cons.injEq, List.cons_append, List.mem_cons, not_or]
        constructor
        · rintro ⟨x, y, hxy, ⟨rfl, rfl⟩, rfl⟩
          have hs := ih.1 hxy
          exact ⟨⟨rfl, hs.1⟩, Ne.symm h, hs.2⟩
        · rintro ⟨⟨rfl, hs⟩, -, hb⟩
          exact ⟨bs, after, ih.2 ⟨hs, hb⟩, ⟨rfl, rfl⟩, rfl⟩

theorem splitFirst?_of_mem {sep : Char} {cs : List Char} (h : sep ∈ cs) :
    splitFirst? sep cs = some (cs.takeWhile (· ≠ sep), (cs.dropWhile (· ≠ sep)).tail) := by
  induction cs with
  | nil => cases h
  | cons c cs ih =>
    by_cases hc : c = sep
    · simp [splitFirst?, hc]
    · have hmem : sep ∈ cs := (List.mem_cons.1 h).resolve_left (Ne.symm hc)
      simp [splitFirst?, hc, ih hmem]

def splitLast? (sep : Char) (cs : List Char) : Option (List Char × List Char) :=
  (splitFirst? sep cs.reverse).map fun (after, before) => (before.reverse, after.reverse)

theorem splitLast?_eq_none_iff {sep : Char} {cs : List Char} :
    splitLast? sep cs = none ↔ sep ∉ cs := by
  simp [splitLast?, splitFirst?_eq_none_iff]

theorem splitLast?_eq_some_iff {sep : Char} {cs before after : List Char} :
    splitLast? sep cs = some (before, after) ↔ cs = before ++ sep :: after ∧ sep ∉ after := by
  simp only [splitLast?, Option.map_eq_some_iff, Prod.exists, Prod.mk.injEq]
  constructor
  · rintro ⟨x, y, h, rfl, rfl⟩
    have hs := splitFirst?_eq_some_iff.1 h
    refine ⟨?_, by simpa using hs.2⟩
    have hr := congrArg List.reverse hs.1
    simpa using hr
  · rintro ⟨rfl, h⟩
    exact ⟨after.reverse, before.reverse,
      splitFirst?_eq_some_iff.2 ⟨by simp, by simpa using h⟩, by simp, by simp⟩

/-- Cuts at the first place where `sep` stands twice in a row. -/
def splitDouble? (sep : Char) : List Char → Option (List Char × List Char)
  | [] => none
  | c :: cs =>
    if c = sep ∧ cs.head? = some sep then some ([], cs.tail)
    else (splitDouble? sep cs).map fun (before, after) => (c :: before, after)

end SenderAuth.Text
