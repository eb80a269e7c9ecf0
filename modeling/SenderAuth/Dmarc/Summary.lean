import SenderAuth.Dmarc.Record

/-!
What the tags of a record come to: of each name the first value, and a message for each that repeats a name.
Taking in the pieces one after the other comes to this, or to the first problem among them.
-/
namespace SenderAuth.Dmarc
open Text

/-- The tags of a record in the order they are written. The version is looked at before the tags that
follow it are read. -/
def readTags : List (List Char) → Except Problem (List Tag)
  | [] => .error .emptyRecord
  | first :: rest => do
    let tag ← Tag.read first
    if tag.isVersion then
      let tags ← rest.mapM Tag.read
      return tag :: tags
    else .error (.wrongStart (String.ofList first))

/-- The tags whose name was written before. -/
def repeated (earlier : List String) : List Tag → List Problem
  | [] => []
  | t :: ts =>
    if t.name ∈ earlier then .repeatedTag t.name :: repeated earlier ts
    else repeated (t.name :: earlier) ts

/-- The first of several tags with one name counts, and the others are told. -/
def Record.ofTags (ts : List Tag) : Record where
  tags := ts.foldr (fun t tags => tags.insert t.name t.value) Tags.empty
  messages := repeated [] ts

namespace Record

theorem get?_ofTags (ts : List Tag) (name : String) :
    (ofTags ts).tags.get? name = (ts.find? (·.name = name)).map Tag.value := by
  induction ts with
  | nil => rfl
  | cons t ts ih =>
    have hinsert : (ofTags (t :: ts)).tags = (ofTags ts).tags.insert t.name t.value := rfl
    rw [hinsert, Tags.get?_insert, ih, List.find?_cons]
    by_cases h : t.name = name
    · simp [h]
    · simp [h, Ne.symm h]

theorem isEmpty_ofTags (ts : List Tag) : (ofTags ts).isEmpty = ts.isEmpty := by
  cases ts with
  | nil => rfl
  | cons t ts => exact Tags.isEmpty_insert (ofTags ts).tags t.name t.value

end Record

/-- The last tag repeats a name when one of those in front has it. -/
theorem repeated_concat (earlier : List String) (ts : List Tag) (t : Tag) :
    repeated earlier (ts ++ [t]) = repeated earlier ts ++
      if t.name ∈ earlier ∨ t.name ∈ ts.map Tag.name then [.repeatedTag t.name] else [] := by
  induction ts generalizing earlier with
  | nil => by_cases h : t.name ∈ earlier <;> simp [repeated, h]
  | cons u us ih =>
    rw [List.cons_append, repeated, repeated]
    by_cases hu : u.name ∈ earlier
    · have hname : t.name ∈ earlier ∨ t.name ∈ (u :: us).map Tag.name ↔
          t.name ∈ earlier ∨ t.name ∈ us.map Tag.name := by
        rw [List.map_cons, List.mem_cons]
        constructor
        · rintro (h | h | h)
          · exact .inl h
          · exact .inl (h ▸ hu)
          · exact .inr h
        · rintro (h | h)
          · exact .inl h
          · exact .inr (.inr h)
      rw [if_pos hu, if_pos hu, ih, List.cons_append]
      simp only [hname]
    · have hname : t.name ∈ u.name :: earlier ∨ t.name ∈ us.map Tag.name ↔
          t.name ∈ earlier ∨ t.name ∈ (u :: us).map Tag.name := by
        rw [List.map_cons, List.mem_cons, List.mem_cons, or_assoc, or_left_comm]
      rw [if_neg hu, if_neg hu, ih]
      simp only [hname]

namespace Record

/-- What one more tag does to the summary of those in front. -/
theorem ofTags_concat (ts : List Tag) (t : Tag) :
    ofTags (ts ++ [t]) =
      if ((ofTags ts).tags.get? t.name).isSome then
        { ofTags ts with messages := (ofTags ts).messages ++ [.repeatedTag t.name] }
      else { ofTags ts with tags := (ofTags ts).tags.insert t.name t.value } := by
  have hseen : ((ofTags ts).tags.get? t.name).isSome = true ↔ t.name ∈ ts.map Tag.name := by
    simp [get?_ofTags, List.find?_isSome]
  have hget (name : String) : (ofTags (ts ++ [t])).tags.get? name =
      ((ofTags ts).tags.get? name).or (if t.name = name then some t.value else none) := by
    rw [get?_ofTags, get?_ofTags, List.find?_append, Option.map_or]
    by_cases h : t.name = name <;> simp [h]
  have hmessages : (ofTags (ts ++ [t])).messages = (ofTags ts).messages ++
      if t.name ∈ ts.map Tag.name then [.repeatedTag t.name] else [] := by
    have hlast := repeated_concat [] ts t
    simp only [List.not_mem_nil, false_or] at hlast
    exact hlast
  split
  · rename_i h
    have htags : (ofTags (ts ++ [t])).tags = (ofTags ts).tags := by
      refine Tags.ext_get? fun name => ?_
      rw [hget]
      by_cases hname : t.name = name
      · rw [← hname, Option.or_of_isSome h]
      · rw [if_neg hname, Option.or_none]
    rw [if_pos (hseen.1 h)] at hmessages
    exact Record.ext htags hmessages
  · rename_i h
    have htags : (ofTags (ts ++ [t])).tags = (ofTags ts).tags.insert t.name t.value := by
      refine Tags.ext_get? fun name => ?_
      rw [hget, Tags.get?_insert]
      by_cases hname : name = t.name
      · subst hname
        simp [Option.not_isSome_iff_eq_none.1 h]
      · rw [if_neg (Ne.symm hname), if_neg hname, Option.or_none]
    rw [if_neg (mt hseen.2 h), List.append_nil] at hmessages
    exact Record.ext htags hmessages

theorem addPiece_ofTags {ts : List Tag} (h : ts ≠ []) (piece : List Char) :
    addPiece (ofTags ts) piece = (Tag.read piece).map fun t => ofTags (ts ++ [t]) := by
  have hempty : (ofTags ts).tags.isEmpty = false := by
    rw [← isEmpty, isEmpty_ofTags, List.isEmpty_eq_false_iff.2 h]
  rw [addPiece, hempty]
  cases Tag.read piece with
  | error problem => rfl
  | ok t =>
    dsimp only [bind, Except.bind, Except.map]
    rw [if_neg (by simp), ofTags_concat]
    split <;> rfl

/-- Behind the first tag, pieces are read one after the other up to the first problem. -/
theorem foldlM_addPiece {ts : List Tag} (h : ts ≠ []) (ps : List (List Char)) :
    ps.foldlM addPiece (ofTags ts) = (ps.mapM Tag.read).map fun us => ofTags (ts ++ us) := by
  induction ps generalizing ts with
  | nil => simp [Except.map, pure, Except.pure]
  | cons p ps ih =>
    rw [List.foldlM_cons, List.mapM_cons, addPiece_ofTags h]
    cases hread : Tag.read p with
    | error problem => rfl
    | ok t =>
      have hne : ts ++ [t] ≠ [] := by simp
      have hrest := ih hne
      simp only [List.append_assoc, List.singleton_append] at hrest
      dsimp only [bind, Except.bind, Except.map] at hrest ⊢
      rw [hrest]
      cases ps.mapM Tag.read <;> rfl

theorem readPieces_eq (ps : List (List Char)) : readPieces ps = (readTags ps).map ofTags := by
  cases ps with
  | nil => rfl
  | cons first rest =>
    rw [readPieces, List.foldlM_cons, addPiece, readTags]
    cases Tag.read first with
    | error problem => rfl
    | ok t =>
      dsimp only [bind, Except.bind]
      by_cases hversion : t.isVersion = true
      · have hfirst : ofTags [t] = { tags := Tags.empty.insert t.name t.value } := rfl
        rw [if_neg (by simp [hversion]), if_pos hversion, if_neg (by simp)]
        dsimp only [pure, Except.pure]
        rw [← hfirst, foldlM_addPiece (by simp)]
        cases rest.mapM Tag.read with
        | error problem => rfl
        | ok us =>
          have hempty : (ofTags ([t] ++ us)).tags.isEmpty = false := by
            rw [← isEmpty, isEmpty_ofTags, List.singleton_append, List.isEmpty_cons]
          dsimp only [Except.map]
          rw [if_neg (ne_true_of_eq_false hempty)]
          rfl
      · rw [if_pos (by simpa using hversion), if_neg hversion]
        rfl

theorem parse_eq (s : String) :
    parse s = match readTags (pieces s.toList) with
      | .ok ts => ofTags ts
      | .error problem => ⟨Tags.empty, [problem]⟩ := by
  rw [parse, readPieces_eq]
  cases readTags (pieces s.toList) <;> rfl

end Record
end SenderAuth.Dmarc
