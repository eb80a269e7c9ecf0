import Mathlib.Data.List.TFAE
import Mathlib.Tactic.TFAE
import SenderAuth.DomainName

/-!
The normal form of a name. Normalising drops one final dot, behind which another dot or white space may
come to light; where none does, the name that is left is its own normal form.
-/
namespace SenderAuth.DomainName
open Text

theorem dropRootDot_concat_dot (cs : List Char) : dropRootDot (cs ++ ['.']) = cs := by
  simp [dropRootDot]

theorem dropRootDot_of_last {cs : List Char} (h : cs.getLast? ≠ some '.') : dropRootDot cs = cs :=
  if_neg h

theorem dropRootDot_sublist (cs : List Char) : (dropRootDot cs).Sublist cs := by
  unfold dropRootDot
  split
  · exact List.dropLast_sublist cs
  · exact .refl cs

theorem getLast?_ne_dot_of_dropRootDot {cs : List Char} (h : dropRootDot cs = cs) :
    cs.getLast? ≠ some '.' := by
  intro hdot
  obtain ⟨before, rfl⟩ := List.getLast?_eq_some_iff.1 hdot
  rw [dropRootDot_concat_dot] at h
  simpa using congrArg List.length h

theorem toLower_eq_dot_iff (c : Char) : c.toLower = '.' ↔ c = '.' := by
  have hdot : decide (c.toLower = '.') = decide (c = '.') :=
    apply_toLower (f := fun c => decide (c = '.')) (by decide) c
  exact decide_eq_decide.1 hdot

theorem getLast?_lowerAscii_eq_dot_iff {cs : List Char} :
    (lowerAscii cs).getLast? = some '.' ↔ cs.getLast? = some '.' := by
  rw [lowerAscii, List.getLast?_map, Option.map_eq_some_iff]
  simp [toLower_eq_dot_iff]

theorem dropRootDot_lowerAscii (cs : List Char) :
    dropRootDot (lowerAscii cs) = lowerAscii (dropRootDot cs) := by
  simp only [dropRootDot, getLast?_lowerAscii_eq_dot_iff]
  split
  · exact List.map_dropLast.symm
  · rfl

theorem toList_normalize (name : String) :
    (normalize name).toList = lowerAscii (dropRootDot (trim name.toList)) := by
  rw [normalize, String.toList_ofList, dropRootDot_lowerAscii]

/-- Nothing is left to be done to the name. -/
structure IsNormal (cs : List Char) : Prop where
  lower : lowerAscii cs = cs
  trimmed : IsTrimmed cs
  last : cs.getLast? ≠ some '.'

theorem normalize_eq_self_iff {name : String} : normalize name = name ↔ IsNormal name.toList := by
  rw [← String.toList_inj, toList_normalize]
  generalize name.toList = cs
  constructor
  · intro h
    -- no step takes a character away, as there are as many in the end as before
    have hdrop := (dropRootDot_sublist (trim cs)).length_le
    have htrim := (trim_sublist cs).length_le
    have hlength : (dropRootDot (trim cs)).length = cs.length := by
      rw [← length_lowerAscii, h]
    have htrimmed : trim cs = cs := (trim_sublist cs).eq_of_length (by omega)
    rw [htrimmed] at h hlength
    have hlast : dropRootDot cs = cs := (dropRootDot_sublist cs).eq_of_length hlength
    rw [hlast] at h
    exact ⟨h, htrimmed ▸ isTrimmed_trim cs, getLast?_ne_dot_of_dropRootDot hlast⟩
  · rintro ⟨hlower, htrimmed, hlast⟩
    rw [htrimmed.trim_eq, dropRootDot_of_last hlast, hlower]

theorem isNormal_lowerAscii_iff {cs : List Char} :
    IsNormal (lowerAscii cs) ↔ IsTrimmed cs ∧ cs.getLast? ≠ some '.' := by
  constructor
  · rintro ⟨-, htrimmed, hlast⟩
    exact ⟨isTrimmed_lowerAscii_iff.1 htrimmed, mt getLast?_lowerAscii_eq_dot_iff.2 hlast⟩
  · rintro ⟨htrimmed, hlast⟩
    exact ⟨lowerAscii_lowerAscii cs, isTrimmed_lowerAscii_iff.2 htrimmed,
      mt getLast?_lowerAscii_eq_dot_iff.1 hlast⟩

/-- A final dot, where there is one, has neither another dot nor white space in front of it. -/
def RootDotAlone (cs : List Char) : Prop :=
  ∀ before c, cs = before ++ [c, '.'] → c ≠ '.' ∧ isBlank c = false

theorem rootDotAlone_of_last {cs : List Char} (h : cs.getLast? ≠ some '.') : RootDotAlone cs := by
  rintro before c rfl
  simp at h

theorem rootDotAlone_concat_dot_iff {cs : List Char} :
    RootDotAlone (cs ++ ['.']) ↔ ∀ c ∈ cs.getLast?, c ≠ '.' ∧ isBlank c = false := by
  constructor
  · intro h c hc
    obtain ⟨before, rfl⟩ := List.getLast?_eq_some_iff.1 hc
    exact h before c (by simp)
  · intro h before c hcut
    have hdots : cs ++ ['.'] = (before ++ [c]) ++ ['.'] := by simpa using hcut
    obtain rfl : cs = before ++ [c] := (List.append_inj' hdots rfl).1
    exact h c (by simp)

theorem isNormal_normalize_iff (name : String) :
    IsNormal (normalize name).toList ↔ RootDotAlone (trim name.toList) := by
  have htrimmed := isTrimmed_trim name.toList
  rw [toList_normalize, isNormal_lowerAscii_iff]
  generalize trim name.toList = cs at htrimmed
  by_cases hdot : cs.getLast? = some '.'
  · obtain ⟨before, rfl⟩ := List.getLast?_eq_some_iff.1 hdot
    rw [dropRootDot_concat_dot, rootDotAlone_concat_dot_iff]
    constructor
    · rintro ⟨hbefore, hlast⟩ c hc
      exact ⟨fun h => hlast (h ▸ hc), hbefore.last c hc⟩
    · intro hlast
      -- what stands first is not moved by the dot
      have hhead : ∀ c ∈ before.head?, isBlank c = false := by
        intro c hc
        refine htrimmed.head c ?_
        rw [List.head?_append, hc]
        rfl
      exact ⟨⟨hhead, fun c hc => (hlast c hc).2⟩, fun h => (hlast '.' h).1 rfl⟩
  · rw [dropRootDot_of_last hdot]
    exact iff_of_true ⟨htrimmed, hdot⟩ (rootDotAlone_of_last hdot)

theorem dmarc_inj {a b : String} : dmarc a = dmarc b ↔ Same a b := by
  simp [dmarc, Same, ← String.toList_inj]

theorem dkim_domain_inj {selector a b : String} : dkim selector a = dkim selector b ↔ Same a b := by
  simp [dkim, Same, ← String.toList_inj]

theorem dkim_selector_inj {domain a b : String} : dkim a domain = dkim b domain ↔ Same a b := by
  simp [dkim, Same, ← String.toList_inj]

/-- To normalise a name once more changes nothing, and its normal form stands for it wherever names are
compared or made, just when its final dot stands alone. -/
theorem normalize_normalize_tfae (name : String) :
    [RootDotAlone (trim name.toList),
      normalize (normalize name) = normalize name,
      Same name (normalize name),
      dmarc (normalize name) = dmarc name,
      ∀ selector, dkim selector (normalize name) = dkim selector name,
      ∀ domain, dkim (normalize name) domain = dkim name domain].TFAE := by
  have hsame : Same (normalize name) name ↔ normalize (normalize name) = normalize name := Iff.rfl
  tfae_have 1 ↔ 2 := by rw [normalize_eq_self_iff, isNormal_normalize_iff]
  tfae_have 2 ↔ 3 := eq_comm
  tfae_have 4 ↔ 2 := dmarc_inj
  tfae_have 5 ↔ 2 := by simp only [dkim_domain_inj, hsame, forall_const]
  tfae_have 6 ↔ 2 := by simp only [dkim_selector_inj, hsame, forall_const]
  tfae_finish

/-- Of two final dots each normalising drops one. -/
theorem not_forall_normalize_normalize :
    ¬ ∀ name, normalize (normalize name) = normalize name := by
  intro h
  have htwice := h "example.com.."
  revert htwice
  decide

end SenderAuth.DomainName
