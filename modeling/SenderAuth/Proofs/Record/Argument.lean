import Mathlib.Data.List.Chain
import SenderAuth.Spf.Grammar

/-!
The argument of a mechanism. Where it is cut is told by equivalences, and so is when it is accepted and
as what.
-/
namespace SenderAuth.Spf
open Text

def Undoubled (sep : Char) (cs : List Char) : Prop := cs.IsChain fun c d => ¬ (c = sep ∧ d = sep)

theorem undoubled_cons {sep c : Char} {cs : List Char} :
    Undoubled sep (c :: cs) ↔ ¬ (c = sep ∧ cs.head? = some sep) ∧ Undoubled sep cs := by
  rw [Undoubled, List.isChain_cons]
  refine and_congr_left' ⟨fun h hc => h sep hc.2 ⟨hc.1, rfl⟩, ?_⟩
  rintro h d hd ⟨rfl, rfl⟩
  exact h ⟨rfl, hd⟩

theorem undoubled_of_notMem {sep : Char} {cs : List Char} (h : sep ∉ cs) : Undoubled sep cs := by
  rw [Undoubled, List.isChain_iff_forall_rel_of_append_cons_cons]
  rintro c d before after rfl ⟨rfl, -⟩
  exact h (by simp)

theorem Undoubled.left {sep : Char} {as bs : List Char} (h : Undoubled sep (as ++ bs)) :
    Undoubled sep as :=
  List.IsChain.left_of_append h

theorem splitDouble?_eq_none_iff {sep : Char} {cs : List Char} :
    splitDouble? sep cs = none ↔ Undoubled sep cs := by
  induction cs with
  | nil => simp [splitDouble?, Undoubled]
  | cons c cs ih =>
    rw [undoubled_cons, ← ih, splitDouble?]
    split
    · rename_i h
      simp [h]
    · rename_i h
      simp [h]

/-- What comes before the cut makes no double with the separator behind it. -/
theorem splitDouble?_eq_some_iff {sep : Char} {cs before after : List Char} :
    splitDouble? sep cs = some (before, after) ↔
      cs = before ++ sep :: sep :: after ∧ Undoubled sep (before ++ [sep]) := by
  have hhead : ∀ bs : List Char,
      (bs ++ [sep]).head? = (bs ++ sep :: sep :: after).head? := by
    intro bs
    cases bs <;> rfl
  induction cs generalizing before with
  | nil => simp [splitDouble?]
  | cons c cs ih =>
    rw [splitDouble?]
    cases before with
    | nil =>
      have hsingle : Undoubled sep [sep] := List.isChain_singleton sep
      split
      · rename_i h
        obtain ⟨rfl, hd⟩ := h
        obtain ⟨ds, rfl⟩ : ∃ ds, cs = c :: ds := List.head?_eq_some_iff.1 hd
        simp [hsingle]
      · rename_i h
        simp only [Option.map_eq_some_iff, Prod.mk.injEq, reduceCtorEq, false_and, and_false,
          exists_false, List.nil_append, List.cons.injEq, false_iff]
        rintro ⟨⟨rfl, rfl⟩, -⟩
        exact h ⟨rfl, rfl⟩
    | cons b bs =>
      rw [List.cons_append, List.cons_append, undoubled_cons, hhead]
      split
      · rename_i h
        simp only [Option.some.injEq, Prod.mk.injEq, reduceCtorEq, false_and, List.cons.injEq,
          false_iff]
        rintro ⟨⟨rfl, rfl⟩, hb, -⟩
        exact hb h
      · rename_i h
        simp only [Option.map_eq_some_iff, Prod.exists, Prod.mk.injEq, List.cons.injEq]
        constructor
        · rintro ⟨x, y, hxy, ⟨rfl, rfl⟩, rfl⟩
          obtain ⟨rfl, hx⟩ := ih.1 hxy
          exact ⟨⟨rfl, rfl⟩, h, hx⟩
        · rintro ⟨⟨rfl, hcs⟩, -, hbs⟩
          exact ⟨bs, after, ih.2 ⟨hcs, hbs⟩, ⟨rfl, rfl⟩, rfl⟩

theorem cutOff_eq_iff {cut : Option (List Char × List Char)} {whole before : List Char}
    {after : Option (List Char)} :
    cutOff cut whole = (before, after) ↔
      match after with
      | none => cut = none ∧ whole = before
      | some cs => cut = some (before, cs) := by
  cases cut <;> cases after <;> simp [cutOff, Prod.ext_iff]

theorem cutOff_splitFirst?_eq_iff {sep : Char} {cs before : List Char} {after : Option (List Char)} :
    cutOff (splitFirst? sep cs) cs = (before, after) ↔
      cs = before ++ separated [sep] after ∧ sep ∉ before := by
  rw [cutOff_eq_iff]
  cases after with
  | none => simp only [splitFirst?_eq_none_iff, separated, List.append_nil]; grind
  | some tail => simp [splitFirst?_eq_some_iff, separated]

theorem cutOff_splitLast?_eq_iff {sep : Char} {cs before : List Char} {after : Option (List Char)} :
    cutOff (splitLast? sep cs) cs = (before, after) ↔
      cs = before ++ separated [sep] after ∧ sep ∉ after.getD before := by
  rw [cutOff_eq_iff]
  cases after with
  | none => simp only [splitLast?_eq_none_iff, separated, List.append_nil, Option.getD_none]; grind
  | some tail => simp [splitLast?_eq_some_iff, separated]

theorem cutOff_splitDouble?_eq_iff {sep : Char} {cs before : List Char}
    {after : Option (List Char)} :
    cutOff (splitDouble? sep cs) cs = (before, after) ↔
      cs = before ++ separated [sep, sep] after ∧
        Undoubled sep (before ++ if after.isSome then [sep] else []) := by
  rw [cutOff_eq_iff]
  cases after with
  | none => simp only [splitDouble?_eq_none_iff, separated, List.append_nil]; grind
  | some tail => simp [splitDouble?_eq_some_iff, separated]

theorem readOptionalLength_eq_ok_iff {max : Nat} {cs : Option (List Char)} {n : Option Nat} :
    readOptionalLength max cs = .ok n ↔
      (cs = none ∧ n = none) ∨ ∃ text k, cs = some text ∧ n = some k ∧ readLength max text = .ok k := by
  cases cs with
  | none => simp [readOptionalLength, eq_comm]
  | some text => cases h : readLength max text <;> simp [readOptionalLength, h, Except.map, eq_comm]

theorem le_of_readOptionalLength {max : Nat} {cs : Option (List Char)} {n : Option Nat}
    (h : readOptionalLength max cs = .ok n) : ∀ k ∈ n, k ≤ max := by
  intro k hk
  rcases readOptionalLength_eq_ok_iff.1 h with ⟨-, rfl⟩ | ⟨text, j, -, rfl, hread⟩
  · cases hk
  · obtain ⟨digits, -, -, -, hle⟩ := readLength_eq_ok_iff.1 hread
    cases hk
    exact hle

theorem isSome_of_readOptionalLength {max : Nat} {cs : Option (List Char)} {n : Option Nat}
    (h : readOptionalLength max cs = .ok n) : n.isSome = cs.isSome := by
  rcases readOptionalLength_eq_ok_iff.1 h with ⟨rfl, rfl⟩ | ⟨text, k, rfl, rfl, -⟩ <;> rfl

theorem bind_eq_ok_iff {ε α β : Type} {x : Except ε α} {f : α → Except ε β} {b : β} :
    x >>= f = .ok b ↔ ∃ a, x = .ok a ∧ f a = .ok b := by
  cases x <;> simp [bind, Except.bind]

namespace Argument

theorem domain_eq_ok_iff {arg : Argument} {x : String} :
    arg.domain = .ok x ↔ x.toList = arg.text ∧ arg.text ≠ [] := by
  unfold domain
  split
  · rename_i h
    simp [h]
  · rename_i h
    rw [Except.ok.injEq]
    constructor
    · rintro rfl
      exact ⟨String.toList_ofList, h⟩
    · rintro ⟨hx, -⟩
      rw [← hx, String.ofList_toList]

/-- A target is cut at the first double slash and what is before that at its last slash. -/
theorem target_eq_ok_iff {arg : Argument} {t : Target} :
    arg.target = .ok t ↔ ∃ name four six,
      arg.text = name ++ separated ['/'] four ++ separated ['/', '/'] six ∧
      Undoubled '/' (name ++ separated ['/'] four ++ if six.isSome then ['/'] else []) ∧
      '/' ∉ four.getD name ∧
      readOptionalLength 32 four = .ok t.cidr4 ∧ readOptionalLength 128 six = .ok t.cidr6 ∧
      t.domain = (if name = [] then none else some (String.ofList name)) ∧
      (name = [] → ∀ text, arg ≠ colon text) := by
  rcases hdouble : cutOff (splitDouble? '/' arg.text) arg.text with ⟨before, six⟩
  rcases hlast : cutOff (splitLast? '/' before) before with ⟨name, four⟩
  have htext := cutOff_splitDouble?_eq_iff.1 hdouble
  have hbefore := cutOff_splitLast?_eq_iff.1 hlast
  simp only [target, hdouble, hlast, bind_eq_ok_iff]
  constructor
  · rintro ⟨cidr6, h6, cidr4, h4, h⟩
    refine ⟨name, four, six, hbefore.1 ▸ htext.1, hbefore.1 ▸ htext.2, hbefore.2, ?_⟩
    split at h
    · cases h
    · rename_i hno
      cases h
      exact ⟨h4, h6, rfl, fun _ text harg => hno text harg⟩
    · cases h
      exact ⟨h4, h6, rfl, by simp⟩
  · rintro ⟨name', four', six', htext', hundoubled, hslash, h4, h6, hdomain, hno⟩
    -- the parts on the right meet the conditions of both cuts, so they are what is cut off
    have hdouble' := cutOff_splitDouble?_eq_iff.2 ⟨htext', hundoubled⟩
    have hlast' := cutOff_splitLast?_eq_iff.2 ⟨rfl, hslash⟩
    rw [hdouble] at hdouble'
    cases hdouble'
    rw [hlast] at hlast'
    cases hlast'
    refine ⟨t.cidr6, h6, t.cidr4, h4, ?_⟩
    obtain ⟨domain, cidr4, cidr6⟩ := t
    simp only at hdomain
    subst hdomain
    cases name with
    | nil =>
      cases arg with
      | colon text => exact absurd rfl (hno rfl text)
      | absent => rfl
      | slash text => rfl
    | cons c cs => rfl

/-- An IPv4 address ends at the first slash. -/
theorem ip4_eq_ok_iff {arg : Argument} {m : Mechanism} :
    arg.ip4 = .ok m ↔ ∃ address digits,
      (arg.text = address ++ separated ['/'] digits ∧ '/' ∉ address) ∧
      ∃ n x, readOptionalLength 32 digits = .ok n ∧ Ipv4.parse? address = some x ∧
        m = .ip4 x n := by
  simp only [← cutOff_splitFirst?_eq_iff]
  rcases hcut : cutOff (splitFirst? '/' arg.text) arg.text with ⟨address, digits⟩
  have hread : arg.ip4 = .ok m ↔ ∃ n x, readOptionalLength 32 digits = .ok n ∧
      Ipv4.parse? address = some x ∧ m = .ip4 x n := by
    simp only [ip4, hcut, bind_eq_ok_iff]
    cases Ipv4.parse? address <;> simp [eq_comm]
  simp [hread]

/-- An IPv6 address ends at the last slash. -/
theorem ip6_eq_ok_iff {arg : Argument} {m : Mechanism} :
    arg.ip6 = .ok m ↔ ∃ address digits,
      (arg.text = address ++ separated ['/'] digits ∧ '/' ∉ digits.getD address) ∧
      ∃ n x, readOptionalLength 128 digits = .ok n ∧ Ipv6.parse? address = some x ∧
        m = .ip6 x n := by
  simp only [← cutOff_splitLast?_eq_iff]
  rcases hcut : cutOff (splitLast? '/' arg.text) arg.text with ⟨address, digits⟩
  have hread : arg.ip6 = .ok m ↔ ∃ n x, readOptionalLength 128 digits = .ok n ∧
      Ipv6.parse? address = some x ∧ m = .ip6 x n := by
    simp only [ip6, hcut, bind_eq_ok_iff]
    cases Ipv6.parse? address <;> simp [eq_comm]
  simp [hread]

end Argument
end SenderAuth.Spf
