import SenderAuth.Proofs.Record.TermCompleteness
import SenderAuth.Proofs.Record.Terms

/-!
A record that is written by the grammar is read as what it says, and nothing is said against it but the
warnings that its directives deserve.
-/
namespace SenderAuth.Spf
open Text

/-- What has to be so for a term to be read back from its text. -/
def Term.Readable : Term → Prop
  | directive d => d.mechanism.WellFormed ∧ ∀ t ∈ d.mechanism.target?, t.Separable
  | modifier _ value => IsValue value
  | _ => False

theorem Term.Readable.plain {t : Term} (h : t.Readable) :
    (∃ d, t = .directive d) ∨ ∃ m value, t = .modifier m value := by
  cases t with
  | directive d => exact .inl ⟨d, rfl⟩
  | modifier m value => exact .inr ⟨m, value, rfl⟩
  | valueless => exact h.elim
  | unknownModifier => exact h.elim
  | fault => exact h.elim

theorem Term.IsText.isWord {t : Term} {cs : List Char} (ht : t.Readable) (h : t.IsText cs) :
    cs ≠ [] ∧ ∀ c ∈ cs, isBlank c = false := by
  rcases ht.plain with ⟨d, rfl⟩ | ⟨m, value, rfl⟩
  · exact Directive.IsTerm.isWord ht.1 h
  · exact Modifier.IsTerm.isWord ht h

theorem Term.read_of_isText {t : Term} {cs : List Char} (ht : t.Readable) (h : t.IsText cs) :
    read cs = t := by
  rcases ht.plain with ⟨d, rfl⟩ | ⟨m, value, rfl⟩
  · exact Directive.read_of_isTerm ht.1 ht.2 h
  · exact Modifier.read_of_isTerm ht h

theorem IsBody.isAsciiBlank_of_mem_head? {ts : List Term} {cs : List Char} (h : IsBody ts cs) :
    ∀ c ∈ cs.head?, isAsciiBlank c = true := by
  intro c hc
  cases h with
  | nil => cases hc
  | cons hne hgap _ _ =>
    rw [List.head?_append_of_ne_nil _ hne] at hc
    exact hgap c (List.mem_of_mem_head? hc)

theorem IsBody.map_read_words {ts : List Term} {cs : List Char} (h : IsBody ts cs)
    (hts : ∀ t ∈ ts, t.Readable) : (words cs).map Term.read = ts := by
  induction h with
  | nil => rfl
  | @cons t ts gap term cs hne hgap ht hcs ih =>
    have hreadable : t.Readable := hts t List.mem_cons_self
    have hword := ht.isWord hreadable
    have hnext : ∀ c ∈ cs.head?, isBlank c = true :=
      fun c hc => isBlank_of_isAsciiBlank (hcs.isAsciiBlank_of_mem_head? c hc)
    rw [words_blank_append fun c hc => isBlank_of_isAsciiBlank (hgap c hc),
      words_append_of_no_blank hword.1 hword.2 hnext, List.map_cons,
      Term.read_of_isText hreadable ht, ih fun t' ht' => hts t' (List.mem_cons_of_mem t ht')]

theorem parse_of_isBody {lead tag body trail : List Char} {ts : List Term} {s : String}
    (hs : s.toList = lead ++ (tag ++ (body ++ trail))) (hlead : ∀ c ∈ lead, isBlank c = true)
    (htag : lowerAscii tag = version) (hbody : IsBody ts body)
    (htrail : ∀ c ∈ trail, isBlank c = true) (hts : ∀ t ∈ ts, t.Readable) :
    Record.parse s = Record.ofTerms ts := by
  rw [parse_eq_ofTerms_words hs hlead htag hbody.isAsciiBlank_of_mem_head? htrail,
    hbody.map_read_words hts]

theorem Arranges.ofTerms_eq {ts : List Term} {ds : List Directive}
    {redirect explanation : Option String} (h : Arranges ts ds redirect explanation)
    (hts : ∀ t ∈ ts, t.Readable) :
    Record.ofTerms ts = ⟨ds, redirect, explanation, warnings ds redirect⟩ := by
  have hredirect : ts.findSome? (Term.value? .redirect) = redirect := by
    rw [← List.head?_filterMap, h.redirect, Option.head?_toList]
  have hexplanation : ts.findSome? (Term.value? .exp) = explanation := by
    rw [← List.head?_filterMap, h.explanation, Option.head?_toList]
  have honce : ∀ m, (ts.filterMap (Term.value? m)).length ≤ 1 := by
    intro m
    cases m with
    | redirect => rw [h.redirect]; exact Option.length_toList_le
    | exp => rw [h.explanation]; exact Option.length_toList_le
  have hmessages := messages_ofTerms (fun t ht => (hts t ht).plain) honce
  simp only [Record.ofTerms, h.directives, hredirect, hexplanation] at hmessages ⊢
  rw [hmessages]

theorem IsBody.exists_isText {ts : List Term} {cs : List Char} (h : IsBody ts cs) :
    ∀ t ∈ ts, ∃ term, t.IsText term := by
  induction h with
  | nil => exact nofun
  | cons _ _ ht _ ih => exact List.forall_mem_cons.2 ⟨⟨_, ht⟩, ih⟩

theorem Arranges.readable {ts : List Term} {ds : List Directive}
    {redirect explanation : Option String} (h : Arranges ts ds redirect explanation)
    (htext : ∀ t ∈ ts, ∃ term, t.IsText term)
    (hds : ∀ d ∈ ds, d.mechanism.WellFormed ∧ ∀ t ∈ d.mechanism.target?, t.Separable)
    (hredirect : ∀ v ∈ redirect, IsValue v) (hexplanation : ∀ v ∈ explanation, IsValue v) :
    ∀ t ∈ ts, t.Readable := by
  intro t ht
  obtain ⟨term, hterm⟩ := htext t ht
  cases t with
  | directive d =>
    apply hds
    rw [← h.directives]
    exact List.mem_filterMap.2 ⟨_, ht, rfl⟩
  | modifier m value =>
    have hmem : value ∈ ts.filterMap (Term.value? m) :=
      List.mem_filterMap.2 ⟨_, ht, Term.value?_eq_some_iff.2 rfl⟩
    cases m with
    | redirect =>
      rw [h.redirect, Option.mem_toList] at hmem
      exact hredirect value hmem
    | exp =>
      rw [h.explanation, Option.mem_toList] at hmem
      exact hexplanation value hmem
  | valueless => exact hterm
  | unknownModifier => exact hterm
  | fault => exact hterm

theorem parse_of_isText {ds : List Directive} {redirect explanation : Option String} {s : String}
    (hds : ∀ d ∈ ds, d.mechanism.WellFormed ∧ ∀ t ∈ d.mechanism.target?, t.Separable)
    (hredirect : ∀ v ∈ redirect, IsValue v) (hexplanation : ∀ v ∈ explanation, IsValue v)
    (h : IsText ds redirect explanation s) :
    Record.parse s = ⟨ds, redirect, explanation, warnings ds redirect⟩ := by
  obtain ⟨lead, tag, ts, body, trail, hs, hlead, htag, harranges, hbody, htrail⟩ := h
  have hts := harranges.readable hbody.exists_isText hds hredirect hexplanation
  rw [parse_of_isBody hs hlead htag hbody htrail hts, harranges.ofTerms_eq hts]

theorem valid_of_messages_eq_warnings {r : Record} {ds : List Directive} {redirect : Option String}
    (h : r.messages = warnings ds redirect) : r.valid = true := by
  rw [Record.valid, h, warnings]
  split
  · rfl
  · split <;> rfl

/-- Whatever is written by the grammar is read as what it says, and the messages are no more than the
warnings that its directives deserve. -/
theorem parse_eq_of_isText {ds : List Directive} {redirect explanation : Option String} {s : String}
    (hds : ∀ d ∈ ds, d.mechanism.WellFormed ∧
      ∀ t ∈ d.mechanism.target?, ∀ x ∈ t.domain, '/' ∉ x.toList)
    (hredirect : ∀ v ∈ redirect, IsValue v) (hexplanation : ∀ v ∈ explanation, IsValue v)
    (h : IsText ds redirect explanation s) :
    Record.parse s = ⟨ds, redirect, explanation, warnings ds redirect⟩ ∧
      (Record.parse s).valid = true := by
  have hseparable : ∀ d ∈ ds, d.mechanism.WellFormed ∧ ∀ t ∈ d.mechanism.target?, t.Separable := by
    intro d hd
    obtain ⟨hwf, hslash⟩ := hds d hd
    exact ⟨hwf, fun t ht x hx hmem => absurd hmem (hslash t ht x hx)⟩
  have hparse := parse_of_isText hseparable hredirect hexplanation h
  exact ⟨hparse, valid_of_messages_eq_warnings (by rw [hparse])⟩

/-- A record with odd spacing, letter cases, domains and digits, its redirect in front. -/
def oddText : String :=
  "\u00a0V=sPf1\tReDirect=q=/x\r\n?mX:x:y=z/024//64 IP6:0:0:0:0:0:0:0dB8:1/128\x0c-ALL include:/24\u2003"

def oddDirectives : List Directive :=
  [⟨.neutral, .mx ⟨some "x:y=z", some 24, some 64⟩⟩,
   ⟨.pass, .ip6 ⟨[0, 0, 0, 0, 0, 0, 0xdb8, 1], rfl⟩ (some 128)⟩,
   ⟨.fail, .all⟩, ⟨.pass, .includes "/24"⟩]

theorem isText_oddText : IsText oddDirectives (some "q=/x") none oddText := by
  have hredirect : Modifier.redirect.IsTerm "q=/x" "ReDirect=q=/x".toList :=
    ⟨"ReDirect".toList, rfl, rfl⟩
  have hmx : Directive.IsTerm ⟨.neutral, .mx ⟨some "x:y=z", some 24, some 64⟩⟩
      "?mX:x:y=z/024//64".toList :=
    ⟨['?'], "mX".toList, ":x:y=z/024//64".toList, .written .neutral, rfl,
      ⟨some "024".toList, some "64".toList, .present (by decide), .present (by decide), rfl⟩, rfl⟩
  have hgroups : Ipv6.IsGroups [0, 0, 0, 0, 0, 0, 0xdb8, 1] "0:0:0:0:0:0:0dB8:1".toList := by
    have hzero : Ipv6.IsGroup 0 ['0'] := by decide
    have hlarge : Ipv6.IsGroup 0xdb8 "0dB8".toList := by decide
    have hone : Ipv6.IsGroup 1 ['1'] := by decide
    exact .cons hzero (.cons hzero (.cons hzero (.cons hzero (.cons hzero (.cons hzero
      (.cons hlarge (.one hone)))))))
  have hip6 : Directive.IsTerm ⟨.pass, .ip6 ⟨[0, 0, 0, 0, 0, 0, 0xdb8, 1], rfl⟩ (some 128)⟩
      "IP6:0:0:0:0:0:0:0dB8:1/128".toList :=
    ⟨[], "IP6".toList, ":0:0:0:0:0:0:0dB8:1/128".toList, .omitted, rfl,
      ⟨_, some "128".toList, hgroups, .present (by decide), rfl⟩, rfl⟩
  have hall : Directive.IsTerm ⟨.fail, .all⟩ "-ALL".toList :=
    ⟨['-'], "ALL".toList, [], .written .fail, rfl, rfl, rfl⟩
  have hinclude : Directive.IsTerm ⟨.pass, .includes "/24"⟩ "include:/24".toList :=
    ⟨[], "include".toList, ":/24".toList, .omitted, rfl, rfl, rfl⟩
  have hgap {gap : List Char} (h : gap.all isAsciiBlank = true) :
      ∀ c ∈ gap, isAsciiBlank c = true := List.all_eq_true.1 h
  have hblank {gap : List Char} (h : gap.all isBlank = true) : ∀ c ∈ gap, isBlank c = true :=
    List.all_eq_true.1 h
  refine ⟨['\u00a0'], "V=sPf1".toList, .modifier .redirect "q=/x" :: oddDirectives.map .directive,
    _, ['\u2003'], ?_, hblank rfl, rfl, ⟨rfl, rfl, rfl⟩,
    .cons (by decide : ['\t'] ≠ []) (hgap rfl) hredirect
      (.cons (by decide : ['\r', '\n'] ≠ []) (hgap rfl) hmx
        (.cons (by decide : [' '] ≠ []) (hgap rfl) hip6
          (.cons (by decide : ['\x0c'] ≠ []) (hgap rfl) hall
            (.cons (by decide : [' '] ≠ []) (hgap rfl) hinclude .nil)))), hblank rfl⟩
  decide +kernel

theorem parse_eq_of_isText_oddText :
    (∀ d ∈ oddDirectives, d.mechanism.WellFormed ∧
      ∀ t ∈ d.mechanism.target?, ∀ x ∈ t.domain, '/' ∉ x.toList) ∧
    (∀ v ∈ some "q=/x", IsValue v) ∧ (∀ v ∈ (none : Option String), IsValue v) ∧
    IsText oddDirectives (some "q=/x") none oddText ∧
    Record.parse oddText = ⟨oddDirectives, some "q=/x", none, [.mechanismAfterAll]⟩ ∧
    (Record.parse oddText).valid = true := by
  have hds : ∀ d ∈ oddDirectives, d.mechanism.WellFormed ∧
      ∀ t ∈ d.mechanism.target?, ∀ x ∈ t.domain, '/' ∉ x.toList := by decide
  have hredirect : ∀ v ∈ some "q=/x", IsValue v := by decide
  exact ⟨hds, hredirect, nofun, isText_oddText,
    parse_eq_of_isText hds hredirect nofun isText_oddText⟩

end SenderAuth.Spf
