import Mathlib.Data.Finset.Card
import SenderAuth.Dmarc.Summary

/-!
The tags of a record and the list that they are made from. A name has the value that it is first written
with, and each tag of the list is either the first of its name or told as a repetition.
-/
namespace SenderAuth.Dmarc

theorem Entries.lookup_eq_some_iff_mem {es : Entries} (h : (es.map Prod.fst).Nodup)
    {name value : String} : es.lookup name = some value ↔ (name, value) ∈ es := by
  induction es with
  | nil => simp
  | cons e es ih =>
    obtain ⟨n, v⟩ := e
    obtain ⟨hnew, hes⟩ := List.nodup_cons.1 h
    rw [lookup_cons_eq_if, List.mem_cons, Prod.mk.injEq]
    by_cases hname : name = n
    · subst hname
      have hnone : (name, value) ∉ es := fun hmem => hnew (List.mem_map.2 ⟨_, hmem, rfl⟩)
      simp [hnone, eq_comm]
    · simp [hname, ih hes]

namespace Tags

def keys (t : Tags) : List String := t.entries.map Prod.fst

def size (t : Tags) : Nat := t.entries.length

theorem mem_keys_iff {t : Tags} {name : String} : name ∈ t.keys ↔ (t.get? name).isSome = true := by
  rw [get?, List.lookup_isSome_iff, keys, List.mem_map]
  simp only [beq_iff_eq, eq_comm (a := name)]

theorem nodup_keys (t : Tags) : t.keys.Nodup := by
  rw [keys, List.nodup_iff_pairwise_ne, List.pairwise_map]
  exact t.sorted.imp fun h => String.ne_of_lt h

theorem get?_eq_some_iff {t : Tags} {name value : String} :
    t.get? name = some value ↔ (name, value) ∈ t.entries :=
  Entries.lookup_eq_some_iff_mem t.nodup_keys

end Tags

namespace Record

theorem get?_ofTags_map (es : Entries) (name : String) :
    (ofTags (es.map fun e => ⟨e.1, e.2⟩)).tags.get? name = es.lookup name := by
  induction es with
  | nil => rfl
  | cons e es ih =>
    have hinsert : (ofTags ((e :: es).map fun e => ⟨e.1, e.2⟩)).tags =
        (ofTags (es.map fun e => ⟨e.1, e.2⟩)).tags.insert e.1 e.2 := rfl
    rw [hinsert, Tags.get?_insert, ih]
    exact (Entries.lookup_cons_eq_if name e.1 e.2 es).symm

theorem mem_keys_ofTags_iff {ts : List Tag} {name : String} :
    name ∈ (ofTags ts).tags.keys ↔ ∃ t ∈ ts, t.name = name := by
  rw [Tags.mem_keys_iff, get?_ofTags, Option.isSome_map, List.find?_isSome]
  simp

end Record

/-- Each tag whose name did not come earlier brings in a new name, or is told as a repetition. -/
theorem card_add_length_repeated (earlier : List String) (ts : List Tag) :
    ((ts.map Tag.name).toFinset \ earlier.toFinset).card + (repeated earlier ts).length =
      ts.length := by
  induction ts generalizing earlier with
  | nil => simp [repeated]
  | cons t ts ih =>
    rw [List.map_cons, List.toFinset_cons, List.length_cons, repeated]
    by_cases h : t.name ∈ earlier
    · have hmem : t.name ∈ earlier.toFinset := List.mem_toFinset.2 h
      rw [Finset.insert_sdiff_of_mem _ hmem, if_pos h, List.length_cons, ← ih earlier, Nat.add_assoc]
    · have hnew : insert t.name (ts.map Tag.name).toFinset \ earlier.toFinset =
          insert t.name ((ts.map Tag.name).toFinset \ (t.name :: earlier).toFinset) := by
        ext name
        by_cases hname : name = t.name <;> simp [hname, h]
      rw [hnew, Finset.card_insert_of_notMem (by simp), if_neg h, ← ih (t.name :: earlier)]
      omega

theorem Record.size_add_length_messages (ts : List Tag) :
    (ofTags ts).tags.size + (ofTags ts).messages.length = ts.length := by
  have hkeys : (ofTags ts).tags.keys.toFinset = (ts.map Tag.name).toFinset := by
    ext name
    simp [mem_keys_ofTags_iff]
  have hsize : (ofTags ts).tags.size = (ts.map Tag.name).toFinset.card := by
    rw [← hkeys, List.toFinset_card_of_nodup (Tags.nodup_keys _), Tags.keys, List.length_map, Tags.size]
  have hcount := card_add_length_repeated [] ts
  rw [List.toFinset_nil, Finset.sdiff_empty, ← hsize] at hcount
  exact hcount

end SenderAuth.Dmarc
