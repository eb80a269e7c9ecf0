import SenderAuth.Dmarc.Canonical
import SenderAuth.Proofs.Dmarc.Acceptance

/-!
The canonical text of a DMARC record is a normal form: what the tags of a record are written as is read as
these tags again, in whatever order those behind the version stand, and there is nothing to be told.
-/
namespace SenderAuth.Dmarc
open Text

theorem semicolon_notMem_of_mem_pieces {piece cs : List Char} (h : piece ∈ pieces cs) :
    ';' ∉ piece := by
  obtain ⟨w, hw, rfl⟩ := List.mem_map.1 (List.mem_filter.1 h).1
  intro hmem
  rw [List.splitOn_eq_splitOnP] at hw
  have hapart := eq_false_of_mem_splitOnP hw ';' ((trim_sublist w).subset hmem)
  simp at hapart

theorem pieces_append_semicolon (xs ys : List Char) :
    pieces (xs ++ ';' :: ys) = pieces xs ++ pieces ys := by
  simp [pieces, List.splitOn_eq_splitOnP, List.splitOnP_append_cons]

theorem pieces_of_notMem {cs : List Char} (h : ';' ∉ cs) (hne : trim cs ≠ []) :
    pieces cs = [trim cs] := by
  simp [pieces, List.splitOn_eq_singleton h, hne]

/-- What a tag is read as can be written. -/
theorem isEntry_of_isTag {piece : List Char} (h : IsTag piece) (hsemicolon : ';' ∉ piece) :
    IsEntry (nameOf piece, valueOf piece) where
  name_ne := by
    rw [nameOf, folded, Ne, String.ofList_eq_empty_iff, lowerAscii, List.map_eq_nil_iff]
    exact h.name_ne_nil
  name_chars := by
    intro c hc
    rw [nameOf, folded, String.toList_ofList] at hc
    obtain ⟨d, hd, rfl⟩ := List.mem_map.1 hc
    rw [isLower_or_isDigit_iff, isAlphanum_toLower]
    exact ⟨h.name_alphanum d hd, toLower_toLower d⟩
  value_trimmed := by
    rw [valueOf, String.toList_ofList]
    exact isTrimmed_trim _
  value_semicolon := by
    rw [valueOf, String.toList_ofList]
    intro hmem
    have hbehind := List.mem_of_mem_tail ((trim_sublist _).subset hmem)
    exact hsemicolon ((List.dropWhile_sublist _).subset hbehind)

namespace IsEntry
variable {e : String × String}

theorem isAlphanum_of_mem (h : IsEntry e) {c : Char} (hc : c ∈ e.1.toList) : c.isAlphanum = true :=
  (isLower_or_isDigit_iff.1 (h.name_chars c hc)).1

theorem notMem_name (h : IsEntry e) {c : Char} (hc : c.isAlphanum = false) : c ∉ e.1.toList := by
  intro hmem
  rw [h.isAlphanum_of_mem hmem] at hc
  cases hc

theorem lowerAscii_name (h : IsEntry e) : lowerAscii e.1.toList = e.1.toList := by
  have hsame : ∀ c ∈ e.1.toList, c.toLower = id c :=
    fun c hc => (isLower_or_isDigit_iff.1 (h.name_chars c hc)).2
  rw [lowerAscii, List.map_congr_left hsame, List.map_id]

theorem isTrimmed_name (h : IsEntry e) : IsTrimmed e.1.toList where
  head _ hc := isBlank_of_isAlphanum (h.isAlphanum_of_mem (List.mem_of_mem_head? hc))
  last _ hc := isBlank_of_isAlphanum (h.isAlphanum_of_mem (List.mem_of_getLast? hc))

theorem toList_name_ne_nil (h : IsEntry e) : e.1.toList ≠ [] := by
  rw [Ne, String.toList_eq_nil_iff]
  exact h.name_ne

theorem isTrimmed_renderTag (h : IsEntry e) : IsTrimmed (renderTag e) where
  head c hc := by
    rw [renderTag, List.head?_append_of_ne_nil _ h.toList_name_ne_nil] at hc
    exact h.isTrimmed_name.head c hc
  last c hc := by
    rw [renderTag, List.getLast?_append_of_ne_nil _ (List.cons_ne_nil _ _), List.getLast?_cons] at hc
    cases hlast : e.2.toList.getLast? with
    | none =>
      obtain rfl : '=' = c := by simpa [hlast] using hc
      decide
    | some d =>
      obtain rfl : d = c := by simpa [hlast] using hc
      exact h.value_trimmed.last d hlast

theorem semicolon_notMem_renderTag (h : IsEntry e) : ';' ∉ renderTag e := by
  simp [renderTag, h.notMem_name (c := ';') rfl, h.value_semicolon]

theorem cut_renderTag (h : IsEntry e) : (renderTag e).takeWhile (· ≠ '=') = e.1.toList ∧
    ((renderTag e).dropWhile (· ≠ '=')).tail = e.2.toList := by
  have hcut : splitFirst? '=' (renderTag e) = some (e.1.toList, e.2.toList) :=
    splitFirst?_eq_some_iff.2 ⟨rfl, h.notMem_name rfl⟩
  rw [splitFirst?_of_mem (by simp [renderTag]), Option.some.injEq, Prod.mk.injEq] at hcut
  exact hcut

theorem nameText_renderTag (h : IsEntry e) : nameText (renderTag e) = e.1.toList := by
  rw [nameText, h.cut_renderTag.1, h.isTrimmed_name.trim_eq]

theorem valueText_renderTag (h : IsEntry e) : valueText (renderTag e) = e.2.toList := by
  rw [valueText, h.cut_renderTag.2, h.value_trimmed.trim_eq]

theorem isTag_renderTag (h : IsEntry e) : IsTag (renderTag e) where
  equals := by simp [renderTag]
  name_ne_nil := by
    rw [h.nameText_renderTag]
    exact h.toList_name_ne_nil
  name_alphanum := by
    rw [h.nameText_renderTag]
    exact fun c hc => h.isAlphanum_of_mem hc

theorem nameOf_renderTag (h : IsEntry e) : nameOf (renderTag e) = e.1 := by
  rw [nameOf, h.nameText_renderTag, folded, h.lowerAscii_name, String.ofList_toList]

/-- A tag that is written is read as it was. -/
theorem ofPiece_renderTag (h : IsEntry e) : Tag.ofPiece (renderTag e) = ⟨e.1, e.2⟩ := by
  rw [Tag.ofPiece, h.nameOf_renderTag, valueOf, h.valueText_renderTag, String.ofList_toList]

end IsEntry

theorem renderTag_ne_nil (e : String × String) : renderTag e ≠ [] := by
  simp [renderTag]

theorem pieces_append_flatMap {es : Entries} (h : ∀ e ∈ es, IsEntry e) (cs : List Char) :
    pieces (cs ++ es.flatMap fun e => ';' :: ' ' :: renderTag e) = pieces cs ++ es.map renderTag := by
  induction es generalizing cs with
  | nil => simp
  | cons e es ih =>
    obtain ⟨he, hes⟩ := List.forall_mem_cons.1 h
    have hsemicolon : ';' ∉ ' ' :: renderTag e := by simp [he.semicolon_notMem_renderTag]
    have htrim : trim (' ' :: renderTag e) = renderTag e := by
      rw [trim_blank_cons (by decide), he.isTrimmed_renderTag.trim_eq]
    have hpiece : pieces (' ' :: renderTag e) = [renderTag e] := by
      rw [pieces_of_notMem hsemicolon (by rw [htrim]; exact renderTag_ne_nil e), htrim]
    have hcut : cs ++ (e :: es).flatMap (fun e => ';' :: ' ' :: renderTag e) =
        cs ++ ';' :: ((' ' :: renderTag e) ++ es.flatMap fun e => ';' :: ' ' :: renderTag e) := rfl
    rw [hcut, pieces_append_semicolon, ih hes, hpiece, List.map_cons]
    rfl

theorem pieces_spell {version : String} {others : Entries} (hversion : IsEntry ("v", version))
    (h : ∀ e ∈ others, IsEntry e) :
    pieces (spell version others).toList = (("v", version) :: others).map renderTag := by
  have htrim := hversion.isTrimmed_renderTag.trim_eq
  have hpiece : pieces (renderTag ("v", version)) = [renderTag ("v", version)] := by
    rw [pieces_of_notMem hversion.semicolon_notMem_renderTag (by rw [htrim]; exact renderTag_ne_nil _),
      htrim]
  rw [spell, String.toList_ofList, pieces_append_flatMap h, hpiece]
  rfl

theorem accepted_map_renderTag {version : String} {others : Entries}
    (hversion : IsEntry ("v", version)) (h : ∀ e ∈ others, IsEntry e)
    (hfolded : folded version.toList = "dmarc1") :
    Accepted ((("v", version) :: others).map renderTag) where
  isTag := by
    intro piece hpiece
    obtain ⟨e, he, rfl⟩ := List.mem_map.1 hpiece
    exact (List.forall_mem_cons.2 ⟨hversion, h⟩ e he).isTag_renderTag
  version := ⟨_, rfl, hversion.nameOf_renderTag, by rw [hversion.valueText_renderTag]; exact hfolded⟩

namespace Record

/-- Tags that are written one after the other, each with a name of its own, are all there is. -/
theorem ofTags_of_perm {t : Tags} {es : Entries} (h : es.Perm t.entries) :
    ofTags (es.map fun e => ⟨e.1, e.2⟩) = ⟨t, []⟩ := by
  have hnodup : (es.map Prod.fst).Nodup := (h.map Prod.fst).nodup_iff.2 t.nodup_keys
  have htags : (ofTags (es.map fun e => ⟨e.1, e.2⟩)).tags = t := by
    refine Tags.ext_get? fun name => Option.ext fun value => ?_
    rw [get?_ofTags_map, Entries.lookup_eq_some_iff_mem hnodup, h.mem_iff, Tags.get?_eq_some_iff]
  have hmessages : (ofTags (es.map fun e => ⟨e.1, e.2⟩)).messages = [] := by
    have hsize := size_add_length_messages (es.map fun e => ⟨e.1, e.2⟩)
    rw [htags, List.length_map, h.length_eq, Tags.size] at hsize
    exact List.length_eq_zero_iff.1 (by omega)
  rw [← htags, ← hmessages]

theorem isEntry_of_mem_parse {s : String} {e : String × String}
    (h : e ∈ (parse s).tags.entries) : IsEntry e := by
  by_cases haccepted : Accepted (pieces s.toList)
  · rw [parse_of_accepted haccepted, ← Tags.get?_eq_some_iff, (says_ofTags _).value] at h
    obtain ⟨piece, hfind, hvalue⟩ := Option.map_eq_some_iff.1 h
    have hpiece := List.mem_of_find?_eq_some hfind
    have hname : nameOf piece = e.1 := by simpa using List.find?_some hfind
    have hentry := isEntry_of_isTag (haccepted.isTag piece hpiece)
      (semicolon_notMem_of_mem_pieces hpiece)
    rwa [hname, hvalue] at hentry
  · obtain ⟨problem, hparse⟩ := parse_of_not_accepted haccepted
    rw [hparse] at h
    cases h

theorem exists_version {s : String} (h : Accepted (pieces s.toList)) :
    ∃ version, (parse s).tags.get? "v" = some version ∧ folded version.toList = "dmarc1" := by
  obtain ⟨first, hfirst, hname, hversion⟩ := h.version
  obtain ⟨rest, hps⟩ := List.head?_eq_some_iff.1 hfirst
  refine ⟨valueOf first, ?_, by rw [valueOf, String.toList_ofList]; exact hversion⟩
  rw [parse_of_accepted h, (says_ofTags _).value, hps, List.find?_cons_of_pos (by simpa using hname)]
  rfl

end Record

/-- The version and the other tags are all the tags. -/
theorem Tags.perm_version_cons {t : Tags} {version : String} (h : t.get? "v" = some version)
    {others : Entries} (hperm : others.Perm (t.entries.filter (·.1 ≠ "v"))) :
    (("v", version) :: others).Perm t.entries := by
  have hentries : t.entries.Nodup := List.Nodup.of_map Prod.fst t.nodup_keys
  have hothers : (("v", version) :: others).Nodup := by
    refine List.nodup_cons.2 ⟨?_, hperm.nodup_iff.2 (hentries.filter _)⟩
    rw [hperm.mem_iff]
    simp
  refine (List.perm_ext_iff_of_nodup hothers hentries).2 fun ⟨name, value⟩ => ?_
  rw [List.mem_cons, hperm.mem_iff, List.mem_filter]
  by_cases hname : name = "v"
  · subst hname
    rw [← Tags.get?_eq_some_iff, h]
    simp [eq_comm]
  · simp [hname]

/-- The tags of a record are such as can be written, the version is among them, and written behind it in any
order they are read as they were, with nothing to be told. -/
theorem parse_spell_tags (s : String) (h : (Record.parse s).isEmpty = false) :
    (∃ version, (Record.parse s).tags.get? "v" = some version ∧ folded version.toList = "dmarc1" ∧
      ∀ others : Entries, others.Perm ((Record.parse s).tags.entries.filter (·.1 ≠ "v")) →
        Record.parse (spell version others) = ⟨(Record.parse s).tags, []⟩) ∧
    ∀ e ∈ (Record.parse s).tags.entries, IsEntry e := by
  have hentry : ∀ e ∈ (Record.parse s).tags.entries, IsEntry e := fun e => Record.isEntry_of_mem_parse
  obtain ⟨version, hversion, hfolded⟩ :=
    Record.exists_version ((Record.isEmpty_parse_eq_false_iff s).1 h)
  refine ⟨⟨version, hversion, hfolded, fun others hperm => ?_⟩, hentry⟩
  have hall := Tags.perm_version_cons hversion hperm
  have hwritten : ∀ e ∈ ("v", version) :: others, IsEntry e := fun e he => hentry e (hall.mem_iff.1 he)
  obtain ⟨hfirst, hothers⟩ := List.forall_mem_cons.1 hwritten
  have hpieces := pieces_spell hfirst hothers
  have haccepted := accepted_map_renderTag hfirst hothers hfolded
  have hread : (("v", version) :: others).map (Tag.ofPiece ∘ renderTag) =
      (("v", version) :: others).map fun e => ⟨e.1, e.2⟩ :=
    List.map_congr_left fun e he => (hwritten e he).ofPiece_renderTag
  rw [← hpieces] at haccepted
  rw [Record.parse_of_accepted haccepted, hpieces, List.map_map, hread, Record.ofTags_of_perm hall]

/-- A record with an empty value, with white space in another, and with a name that is written twice. -/
def looseRecord : String := "V=DMARC1;rua = a = b c;; P = ; p=none;\tsp=reject\u2003"

theorem parse_spell_tags_looseRecord :
    (Record.parse looseRecord).isEmpty = false ∧
      (Record.parse looseRecord).messages = [.repeatedTag "p"] ∧
      Record.parse "v=DMARC1; sp=reject; rua=a = b c; p=" = ⟨(Record.parse looseRecord).tags, []⟩ ∧
      IsEntry ("rua", "a = b c") := by
  have hnonempty : (Record.parse looseRecord).isEmpty = false := by decide +kernel
  have hentries : (Record.parse looseRecord).tags.entries =
      [("p", ""), ("rua", "a = b c"), ("sp", "reject"), ("v", "DMARC1")] := by decide +kernel
  have hperm : ([("sp", "reject"), ("rua", "a = b c"), ("p", "")] : Entries).Perm
      ((Record.parse looseRecord).tags.entries.filter (·.1 ≠ "v")) := by
    rw [hentries]
    decide
  have hget : (Record.parse looseRecord).tags.get? "v" = some "DMARC1" := by
    rw [Tags.get?, hentries]
    decide
  obtain ⟨⟨version, hversion, -, hspell⟩, hwritten⟩ := parse_spell_tags looseRecord hnonempty
  obtain rfl : version = "DMARC1" := Option.some.inj (hversion.symm.trans hget)
  refine ⟨hnonempty, by decide +kernel, hspell _ hperm, hwritten _ ?_⟩
  rw [hentries]
  decide

end SenderAuth.Dmarc
