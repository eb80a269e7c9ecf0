/-!
The tags of a DMARC record: at most one value for each name, kept in the order of the names. Two
collections with the same values are equal.
-/
namespace SenderAuth.Dmarc

abbrev Entries := List (String × String)

namespace Entries

def Sorted (es : Entries) : Prop := es.Pairwise fun x y => x.1 < y.1

def insert (name value : String) : Entries → Entries
  | [] => [(name, value)]
  | (n, v) :: es =>
    if name < n then (name, value) :: (n, v) :: es
    else if n < name then (n, v) :: insert name value es
    else (name, value) :: es

theorem insert_ne_nil (name value : String) (es : Entries) : insert name value es ≠ [] := by
  cases es with
  | nil => simp [insert]
  | cons e es =>
    unfold insert
    split
    · simp
    · split <;> simp

theorem lookup_cons_eq_if (key name value : String) (es : Entries) :
    List.lookup key ((name, value) :: es) = if key = name then some value else es.lookup key := by
  by_cases h : key = name
  · simp [h]
  · simp [List.lookup_cons, beq_eq_false_iff_ne.2 h, h]

theorem lookup_insert (name value key : String) (es : Entries) :
    (insert name value es).lookup key = if key = name then some value else es.lookup key := by
  induction es with
  | nil => exact lookup_cons_eq_if key name value []
  | cons e es ih =>
    obtain ⟨n, v⟩ := e
    unfold insert
    split
    · exact lookup_cons_eq_if key name value _
    · split
      · rename_i hn
        rw [lookup_cons_eq_if, lookup_cons_eq_if, ih]
        by_cases h : key = name
        · simp [h, Ne.symm (String.ne_of_lt hn)]
        · simp [h]
      · rename_i h₁ h₂
        have hn : n = name := String.le_antisymm (String.not_lt.1 h₁) (String.not_lt.1 h₂)
        rw [lookup_cons_eq_if, lookup_cons_eq_if, hn]
        by_cases h : key = name <;> simp [h]

theorem mem_insert {name value : String} {es : Entries} {e : String × String}
    (h : e ∈ insert name value es) : e = (name, value) ∨ e ∈ es := by
  induction es with
  | nil => simpa [insert] using h
  | cons x xs ih =>
    unfold insert at h
    split at h
    · simpa using h
    · split at h
      · rcases List.mem_cons.1 h with rfl | h
        · simp
        · rcases ih h with rfl | h <;> simp_all
      · rcases List.mem_cons.1 h with rfl | h <;> simp_all

theorem Sorted.insert {es : Entries} (h : Sorted es) (name value : String) :
    Sorted (es.insert name value) := by
  induction es with
  | nil => simp [Entries.insert, Sorted]
  | cons x xs ih =>
    obtain ⟨n, v⟩ := x
    have hx := List.pairwise_cons.1 h
    unfold Entries.insert
    split
    · rename_i hn
      refine List.pairwise_cons.2 ⟨?_, h⟩
      intro e he
      rcases List.mem_cons.1 he with rfl | he
      · exact hn
      · exact String.lt_trans hn (hx.1 e he)
    · split
      · rename_i hn
        refine List.pairwise_cons.2 ⟨?_, ih hx.2⟩
        intro e he
        rcases mem_insert he with rfl | he
        · exact hn
        · exact hx.1 e he
      · rename_i h₁ h₂
        have hn : n = name := String.le_antisymm (String.not_lt.1 h₁) (String.not_lt.1 h₂)
        subst hn
        exact List.pairwise_cons.2 ⟨fun e he => hx.1 e he, hx.2⟩

theorem lookup_eq_none_of_lt {es : Entries} {name : String} (h : ∀ e ∈ es, name < e.1) :
    es.lookup name = none := by
  rw [List.lookup_eq_none_iff]
  intro e he
  simpa using String.ne_of_lt (h e he)

/-- The first name of two sorted lists with the same values is not before that of the other. -/
theorem Sorted.not_lt_of_lookup_eq {n m v w : String} {es fs : Entries}
    (hf : Sorted ((m, w) :: fs))
    (h : List.lookup n ((n, v) :: es) = List.lookup n ((m, w) :: fs)) : ¬ n < m := by
  intro hlt
  have hnone : List.lookup n ((m, w) :: fs) = none := by
    refine lookup_eq_none_of_lt fun e he => ?_
    rcases List.mem_cons.1 he with rfl | he
    · exact hlt
    · exact String.lt_trans hlt ((List.pairwise_cons.1 hf).1 e he)
  rw [hnone, List.lookup_cons_self] at h
  cases h

theorem Sorted.ext {es fs : Entries} (he : Sorted es) (hf : Sorted fs)
    (h : ∀ name, es.lookup name = fs.lookup name) : es = fs := by
  induction es generalizing fs with
  | nil =>
    cases fs with
    | nil => rfl
    | cons f fs =>
      have hk := h f.1
      rw [show f = (f.1, f.2) from rfl, List.lookup_cons_self] at hk
      cases hk
  | cons e es ih =>
    obtain ⟨n, v⟩ := e
    cases fs with
    | nil =>
      have hk := h n
      rw [List.lookup_cons_self] at hk
      cases hk
    | cons f fs =>
      obtain ⟨m, w⟩ := f
      have hnm : n = m := String.le_antisymm
        (String.not_lt.1 (Sorted.not_lt_of_lookup_eq he (h m).symm))
        (String.not_lt.1 (Sorted.not_lt_of_lookup_eq hf (h n)))
      subst hnm
      have hvw := h n
      rw [List.lookup_cons_self, List.lookup_cons_self, Option.some.injEq] at hvw
      subst hvw
      congr 1
      have hes := List.pairwise_cons.1 he
      have hfs := List.pairwise_cons.1 hf
      refine ih hes.2 hfs.2 fun name => ?_
      by_cases hn : name = n
      · subst hn
        rw [lookup_eq_none_of_lt hes.1, lookup_eq_none_of_lt hfs.1]
      · have hk := h name
        simpa [lookup_cons_eq_if, hn] using hk

end Entries

structure Tags where
  entries : Entries
  sorted : entries.Sorted

namespace Tags

instance : DecidableEq Tags := fun t u =>
  if h : t.entries = u.entries then
    isTrue (by cases t; cases u; cases h; rfl)
  else isFalse fun he => h (he ▸ rfl)

def empty : Tags := ⟨[], List.Pairwise.nil⟩

def isEmpty (t : Tags) : Bool := t.entries.isEmpty

def get? (t : Tags) (name : String) : Option String := t.entries.lookup name

def insert (t : Tags) (name value : String) : Tags :=
  ⟨t.entries.insert name value, t.sorted.insert name value⟩

@[simp] theorem get?_empty (name : String) : empty.get? name = none := rfl

@[simp] theorem get?_insert (t : Tags) (name value key : String) :
    (t.insert name value).get? key = if key = name then some value else t.get? key :=
  Entries.lookup_insert name value key t.entries

@[simp] theorem isEmpty_empty : empty.isEmpty = true := rfl

@[simp] theorem isEmpty_insert (t : Tags) (name value : String) :
    (t.insert name value).isEmpty = false := by
  rw [isEmpty, List.isEmpty_eq_false_iff]
  exact Entries.insert_ne_nil name value t.entries

theorem ext_get? {t u : Tags} (h : ∀ name, t.get? name = u.get? name) : t = u := by
  have he : t.entries = u.entries := Entries.Sorted.ext t.sorted u.sorted h
  cases t; cases u; cases he; rfl

end Tags
end SenderAuth.Dmarc
