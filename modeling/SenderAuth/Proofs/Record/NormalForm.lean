import SenderAuth.Proofs.Record.Completeness

/-!
The canonical text of a record is a normal form: the record that it is read as has the same canonical
text. What is lost in writing a record and reading it again are the errors.
-/
namespace SenderAuth.Spf
open Text

theorem exists_isLength (n : Option Nat) :
    ∃ digits, IsLength n digits ∧ ∀ slashes, renderLength slashes n = separated slashes digits := by
  cases n with
  | none => exact ⟨none, .absent, fun _ => rfl⟩
  | some n => exact ⟨some (Nat.toDigits 10 n), .present (isDecimal_toDigits n), fun _ => rfl⟩

theorem Target.isArgument_render (t : Target) : t.IsArgument t.render := by
  obtain ⟨four, h4, hfour⟩ := exists_isLength t.cidr4
  obtain ⟨six, h6, hsix⟩ := exists_isLength t.cidr6
  exact ⟨four, six, h4, h6, by rw [Target.render, hfour, hsix]⟩

theorem Mechanism.isArgument_argument (m : Mechanism) : m.IsArgument m.argument := by
  cases m with
  | all => rfl
  | includes x => rfl
  | existsAt x => rfl
  | a t => exact t.isArgument_render
  | mx t => exact t.isArgument_render
  | ptr domain => rfl
  | ip4 x length =>
    obtain ⟨digits, hlength, hdigits⟩ := exists_isLength length
    exact ⟨digits, hlength, by rw [argument, hdigits]; rfl⟩
  | ip6 x length =>
    obtain ⟨digits, hlength, hdigits⟩ := exists_isLength length
    exact ⟨_, digits, Ipv6.isGroups_render x, hlength, by rw [argument, hdigits]; rfl⟩

theorem Directive.isTerm_render (d : Directive) : d.IsTerm d.render :=
  ⟨[d.qualifier.sign], d.mechanism.kind.name.toList, d.mechanism.argument, .written _,
    by cases d.mechanism.kind <;> rfl, d.mechanism.isArgument_argument, rfl⟩

theorem Modifier.isTerm_render (m : Modifier) (value : String) :
    m.IsTerm value (m.name.toList ++ '=' :: value.toList) :=
  ⟨m.name.toList, by cases m <;> rfl, rfl⟩

/-- Terms with their texts, a blank in front of each, make a body. -/
theorem isBody_flatMap {ts : List Term} {texts : List (List Char)}
    (h : List.Forall₂ Term.IsText ts texts) : IsBody ts (texts.flatMap (' ' :: ·)) := by
  induction h with
  | nil => exact .nil
  | cons ht _ ih =>
    have hgap : ∀ c ∈ [' '], isAsciiBlank c = true := List.all_eq_true.1 rfl
    exact .cons (List.cons_ne_nil ' ' []) hgap ht ih

namespace Record

def content (r : Record) : List Term :=
  r.directives.map .directive ++ (r.redirect.map (.modifier .redirect)).toList ++
    (r.explanation.map (.modifier .exp)).toList

theorem forall₂_content_terms (r : Record) : List.Forall₂ Term.IsText r.content r.terms := by
  have hmodifier (m : Modifier) (value : Option String) :
      List.Forall₂ Term.IsText (value.map (Term.modifier m)).toList (m.render value) := by
    cases value with
    | none => exact .nil
    | some value => exact .cons (m.isTerm_render value) .nil
  have hdirectives :
      List.Forall₂ Term.IsText (r.directives.map .directive) (r.directives.map Directive.render) := by
    rw [List.forall₂_map_left_iff, List.forall₂_map_right_iff, List.forall₂_same]
    exact fun d _ => d.isTerm_render
  exact List.rel_append (List.rel_append hdirectives (hmodifier .redirect _)) (hmodifier .exp _)

theorem arranges_content (r : Record) :
    Arranges r.content r.directives r.redirect r.explanation := by
  have hdirectives : (r.directives.map Term.directive).filterMap Term.directive? = r.directives := by
    simp [List.filterMap_map, Function.comp_def]
  have hvalue (m : Modifier) : (r.directives.map Term.directive).filterMap (Term.value? m) = [] := by
    simp [List.filterMap_map, Function.comp_def]
  constructor <;> cases hr : r.redirect <;> cases he : r.explanation <;>
    simp [content, hr, he, hdirectives, hvalue, List.filterMap_cons]

theorem isText_render (r : Record) : IsText r.directives r.redirect r.explanation r.render :=
  ⟨[], version, r.content, _, [], by simp [render, spell], nofun, rfl, r.arranges_content,
    isBody_flatMap r.forall₂_content_terms, nofun⟩

end Record

/-- What is read from words can be written by the grammar. -/
theorem readable_of_eq_ofTerms {words : List (List Char)}
    (hblank : ∀ w ∈ words, ∀ c ∈ w, isBlank c = false) {r : Record}
    (hr : r = Record.ofTerms (words.map Term.read)) :
    (∀ d ∈ r.directives, d.mechanism.WellFormed ∧ ∀ t ∈ d.mechanism.target?, t.Separable) ∧
    (∀ v ∈ r.redirect, IsValue v) ∧ ∀ v ∈ r.explanation, IsValue v := by
  have hvalue (m : Modifier) {v : String}
      (hv : (words.map Term.read).findSome? (Term.value? m) = some v) : IsValue v := by
    obtain ⟨t, ht, htv⟩ := List.exists_of_findSome?_eq_some hv
    obtain ⟨w, hw, rfl⟩ := List.mem_map.1 ht
    exact Term.isValue_of_read (hblank w hw) (Term.value?_eq_some_iff.1 htv)
  subst hr
  refine ⟨fun d hd => ?_, fun v hv => hvalue .redirect hv, fun v hv => hvalue .exp hv⟩
  obtain ⟨t, ht, htd⟩ := List.mem_filterMap.1 hd
  obtain ⟨w, hw, rfl⟩ := List.mem_map.1 ht
  have hread := Term.read_eq_directive_iff.1 (Term.directive?_eq_some_iff.1 htd)
  exact Directive.wellFormed_of_read (hblank w hw) hread.2

/-- A text with a version tag is read as a record whose canonical text is read as that record again,
with the warnings of the first reading for its messages. -/
theorem parse_render_parse {s : String}
    (h : ∀ found, .invalidVersion found ∉ (Record.parse s).messages) :
    Record.parse (Record.parse s).render = { Record.parse s with
      messages := (Record.parse s).messages.filter (!·.isError) } ∧
    (Record.parse (Record.parse s).render).valid = true := by
  obtain ⟨rest, hrest⟩ := Option.isSome_iff_exists.1 (invalidVersion_notMem_parse_iff.1 h)
  have hterms : Record.parse s = Record.ofTerms ((words rest).map Term.read) := by
    rw [Record.parse_eq, hrest]
  obtain ⟨hds, hredirect, hexplanation⟩ :=
    readable_of_eq_ofTerms (fun w hw => isBlank_of_mem_words hw) hterms
  have hparse := parse_of_isText hds hredirect hexplanation (Record.parse s).isText_render
  refine ⟨?_, valid_of_messages_eq_warnings (by rw [hparse])⟩
  rw [filter_warning_messages_parse hrest, hparse]

/-- A record with slashes in odd places and with terms that are wrong. -/
def slashedText : String :=
  "v=spf1 a:x/y/024 include/z bogus +all exp= redirect=q:/ -MX/024//+64 redirect=r\u000b"

theorem messages_slashedText : (Record.parse slashedText).messages =
    [.unknownMechanism "bogus", .invalidArgument "exp=" .valueRequired, .mechanismAfterAll,
      .duplicateModifier .redirect] := by
  decide +kernel

theorem parse_render_parse_slashedText :
    (∀ found, .invalidVersion found ∉ (Record.parse slashedText).messages) ∧
      Record.parse (Record.parse slashedText).render = { Record.parse slashedText with
        messages := (Record.parse slashedText).messages.filter (!·.isError) } ∧
      (Record.parse (Record.parse slashedText).render).valid = true := by
  have hversion : ∀ found, .invalidVersion found ∉ (Record.parse slashedText).messages := by
    simp [messages_slashedText]
  exact ⟨hversion, parse_render_parse hversion⟩

example : (Record.parse slashedText).render =
    "v=spf1 +a:x/y/24 +include:/z +all -mx/24//64 redirect=q:/" := by
  decide +kernel

end SenderAuth.Spf
