import SenderAuth.Proofs.Record.Directive
import SenderAuth.Spf.Slicing

/-!
No text is cut where it cannot be. The places that SPF records are cut at are counted in the bytes of what was
found to stand in front of them, and so reading with cuts at byte positions always comes to a result, the one of
reading character by character.
-/
namespace SenderAuth.Spf
open Text

theorem sliceFrom?_ofList_append (as bs : List Char) :
    sliceFrom? (String.ofList (as ++ bs)) (String.ofList as).utf8ByteSize = some (String.ofList bs) := by
  rw [String.ofList_append, sliceFrom?_append]

theorem sliceTo?_ofList_append (as bs : List Char) :
    sliceTo? (String.ofList (as ++ bs)) (String.ofList as).utf8ByteSize = some (String.ofList as) := by
  rw [String.ofList_append, sliceTo?_append]

/-- Letters take as many bytes in lower case. -/
theorem utf8ByteSize_lowerAscii (cs : List Char) :
    (String.ofList (lowerAscii cs)).utf8ByteSize = (String.ofList cs).utf8ByteSize := by
  have hletter (c : Char) : c.toLower.utf8Size = c.utf8Size := apply_toLower (by decide) c
  induction cs with
  | nil => rfl
  | cons c cs ih =>
    rw [lowerAscii_cons, utf8ByteSize_ofList_cons, utf8ByteSize_ofList_cons, ih, hletter]

theorem utf8ByteSize_of_lowerAscii_eq_version {tag : List Char} (h : lowerAscii tag = version) :
    (String.ofList tag).utf8ByteSize = Slicing.versionEnd := by
  rw [← utf8ByteSize_lowerAscii, h, Slicing.versionEnd]

/-- Two parts of a text that end at the same byte are the same. -/
theorem eq_of_utf8ByteSize_eq {as bs cs ds : List Char} (h : as ++ bs = cs ++ ds)
    (hsize : (String.ofList as).utf8ByteSize = (String.ofList cs).utf8ByteSize) : as = cs ∧ bs = ds := by
  have hcut : cutAt? (String.ofList (as ++ bs)) (String.ofList as).utf8ByteSize =
      some (String.ofList cs, String.ofList ds) :=
    cutAt?_eq_some_iff.2 ⟨by rw [h, String.ofList_append], hsize.symm⟩
  rw [String.ofList_append, cutAt?_append, Option.some.injEq, Prod.mk.injEq] at hcut
  exact ⟨String.ofList_injective hcut.1, String.ofList_injective hcut.2⟩

/-- What is in front of the byte position behind the version tag is the tag, or there is none. -/
theorem isSome_afterVersion?_of_size {tag rest : List Char}
    (hsize : (String.ofList tag).utf8ByteSize = Slicing.versionEnd) :
    (afterVersion? (tag ++ rest)).isSome =
      (decide (lowerAscii tag = version) && rest.head?.all isAsciiBlank) := by
  rw [Bool.eq_iff_iff, Bool.and_eq_true, decide_eq_true_eq, Option.isSome_iff_exists, Option.all_eq_true]
  constructor
  · rintro ⟨rest', h⟩
    obtain ⟨tag', hcut, htag, hascii⟩ := afterVersion?_eq_some_iff.1 h
    obtain ⟨rfl, rfl⟩ := eq_of_utf8ByteSize_eq hcut
      (hsize.trans (utf8ByteSize_of_lowerAscii_eq_version htag).symm)
    exact ⟨htag, hascii⟩
  · rintro ⟨htag, hascii⟩
    exact ⟨rest, afterVersion?_eq_some_iff.2 ⟨tag, rfl, htag, hascii⟩⟩

namespace Slicing

theorem isSpf_eq (s : String) : isSpf s = some (Spf.isSpf s) := by
  unfold isSpf Spf.isSpf
  generalize trimStart s.toList = cs
  cases hcut : sliceTo? (String.ofList cs) versionEnd with
  | none =>
    simp only [hcut]
    cases hafter : afterVersion? cs with
    | none => rfl
    | some rest =>
      -- a text with the tag in front can be cut behind it
      obtain ⟨tag, rfl, htag, -⟩ := afterVersion?_eq_some_iff.1 hafter
      rw [← utf8ByteSize_of_lowerAscii_eq_version htag, sliceTo?_ofList_append] at hcut
      cases hcut
  | some tag =>
    obtain ⟨rest, hparts, hsize⟩ := sliceTo?_eq_some_iff.1 hcut
    have hcs : cs = tag.toList ++ rest.toList := by
      rw [← String.toList_append, ← hparts, String.toList_ofList]
    have hrest : sliceFrom? (String.ofList cs) versionEnd = some rest := by
      rw [hparts, ← hsize, sliceFrom?_append]
    have htag : (String.ofList tag.toList).utf8ByteSize = versionEnd := by
      rw [String.ofList_toList, hsize]
    have hafter : (afterVersion? cs).isSome =
        (decide (lowerAscii tag.toList = version) && rest.toList.head?.all isAsciiBlank) := by
      rw [hcs, isSome_afterVersion?_of_size htag]
    by_cases h : lowerAscii tag.toList = version
    · simp [hcut, hrest, hafter, h]
    · simp [hcut, hafter, h]

theorem select_eq (records : List String) : select records = some (Spf.select records) := by
  rw [select, funext isSpf_eq]
  exact List.findM?_pure Spf.isSpf records

theorem strip_ofList (cs : List Char) :
    strip (String.ofList cs) =
      some ((Qualifier.strip cs).1, String.ofList (Qualifier.strip cs).2) := by
  unfold strip Qualifier.strip
  rw [String.toList_ofList]
  cases hsign : cs.head?.bind Qualifier.ofSign? with
  | none => rfl
  | some q =>
    obtain ⟨c, hhead, hc⟩ := Option.bind_eq_some_iff.1 hsign
    obtain ⟨ds, rfl⟩ := List.head?_eq_some_iff.1 hhead
    obtain rfl := Qualifier.ofSign?_eq_some_iff.1 hc
    have hbyte : (String.ofList [q.sign]).utf8ByteSize = 1 := by cases q <;> rfl
    have hrest : sliceFrom? (String.ofList (q.sign :: ds)) 1 = some (String.ofList ds) := by
      rw [← hbyte]
      exact sliceFrom?_ofList_append [q.sign] ds
    simp only [hrest, Option.map_some, List.tail_cons]

/-- The name, and the argument told by the text behind the name, are those of the term. -/
theorem splitArgument_ofList (cs : List Char) :
    ∃ text, splitArgument (String.ofList cs) =
        some (String.ofList (Argument.split cs).1, text) ∧
      ∃ behind, sliceFrom? (String.ofList cs) (String.ofList (Argument.split cs).1).utf8ByteSize =
          some behind ∧ argument behind text = (Argument.split cs).2 := by
  rcases hsplit : Argument.split cs with ⟨name, arg⟩
  obtain ⟨rfl, hname, harg⟩ := Argument.split_eq_iff.1 hsplit
  have hbehind := sliceFrom?_ofList_append name arg.source
  unfold splitArgument
  rw [String.toList_ofList]
  cases arg with
  | colon text =>
    have hcolon : splitFirst? ':' (name ++ (Argument.colon text).source) = some (name, text) :=
      splitFirst?_eq_some_iff.2 ⟨rfl, hname⟩
    rw [hcolon]
    exact ⟨_, rfl, _, hbehind, by simp [argument, Argument.source]⟩
  | slash text =>
    obtain ⟨hslash, hno⟩ := harg.resolve_left (by simp)
    have hcolon : splitFirst? ':' (name ++ (Argument.slash text).source) = none :=
      splitFirst?_eq_none_iff.2 (by simp [hname, hno])
    have hindex : byteIndex? '/' (name ++ (Argument.slash text).source) =
        some (String.ofList name).utf8ByteSize := by
      have hcut : splitFirst? '/' (name ++ (Argument.slash text).source) = some (name, text) :=
        splitFirst?_eq_some_iff.2 ⟨rfl, hslash⟩
      rw [byteIndex?_eq_map_splitFirst?, hcut, Option.map_some]
    rw [hcolon]
    simp only [hindex, hbehind, sliceTo?_ofList_append]
    exact ⟨_, rfl, _, rfl, by simp [argument, Argument.source]⟩
  | absent =>
    obtain ⟨hslash, -⟩ := harg.resolve_left (by simp)
    rw [Argument.source, List.append_nil] at hbehind ⊢
    have hindex : byteIndex? '/' name = none := by
      rw [byteIndex?_eq_map_splitFirst?, splitFirst?_eq_none_iff.2 hslash, Option.map_none]
    rw [splitFirst?_eq_none_iff.2 hname, hindex]
    exact ⟨_, rfl, _, hbehind, rfl⟩

theorem readDirective_ofList (term : List Char) :
    readDirective (String.ofList term) = some (Directive.read term) := by
  obtain ⟨text, hsplit, behind, hbehind, harg⟩ := splitArgument_ofList (Qualifier.strip term).2
  simp only [readDirective, strip_ofList, Option.bind_eq_bind, Option.bind_some, hsplit, hbehind, harg,
    assemble, String.toList_ofList]
  rfl

theorem readTerm_eq (term : List Char) : readTerm term = some (Term.read term) := by
  unfold readTerm Term.read
  cases splitModifier? term with
  | some p => rfl
  | none =>
    rw [readDirective_ofList]
    cases Directive.read term <;> rfl

theorem parse_eq (s : String) : parse s = some (Record.parse s) := by
  have htext : trimStart (trim s.toList) = trim s.toList := trimStart_of_head (isTrimmed_trim _).head
  have hspf : isSpf (String.ofList (trim s.toList)) = some (afterVersion? (trim s.toList)).isSome := by
    rw [isSpf_eq, Spf.isSpf, String.toList_ofList, htext]
  unfold parse Record.parse
  simp only [hspf]
  cases hafter : afterVersion? (trim s.toList) with
  | none => simp [words_trim]
  | some rest =>
    obtain ⟨tag, hcut, htag, -⟩ := afterVersion?_eq_some_iff.1 hafter
    have hrest : sliceFrom? (String.ofList (trim s.toList)) versionEnd = some (String.ofList rest) := by
      rw [hcut, ← utf8ByteSize_of_lowerAscii_eq_version htag, sliceFrom?_ofList_append]
    have hterms : (words rest).mapM readTerm = some ((words rest).map Term.read) := by
      rw [funext readTerm_eq]
      exact List.mapM_pure
    simp [hrest, hterms]

end Slicing

/-- Whatever the text is, its cuts lie within what is cut and between two characters: asking whether it is an
SPF record, looking for one among the strings of a domain and reading it all come to the result that they come to
character by character. -/
theorem no_cut_fails (s : String) (records : List String) :
    Slicing.isSpf s = some (isSpf s) ∧
      Slicing.select records = some (select records) ∧
      Slicing.parse s = some (Record.parse s) :=
  ⟨Slicing.isSpf_eq s, Slicing.select_eq records, Slicing.parse_eq s⟩

/-- Five letters of the tag and a character of two bytes: the byte position behind the tag is inside it. -/
example : (Text.cutAt? "v=spfé -all" Slicing.versionEnd).isNone = true ∧
    Slicing.isSpf "v=spfé -all" = some false := by
  decide +kernel

end SenderAuth.Spf
