import SenderAuth.Dmarc.Grammar
import SenderAuth.Dmarc.Published
import SenderAuth.Proofs.Check.Failure
import SenderAuth.Proofs.Check.View
import SenderAuth.Proofs.Dmarc.TagMap

/-!
Which texts are read as DMARC records, and as what. A text is accepted as a whole or not at all; what is
accepted says of each name the value that it is first written with, and what is not says one thing only.
-/
namespace SenderAuth.Dmarc
open Dns Text

namespace Tag

def ofPiece (piece : List Char) : Tag := ⟨nameOf piece, valueOf piece⟩

@[simp] theorem name_ofPiece (piece : List Char) : (ofPiece piece).name = nameOf piece := rfl

@[simp] theorem value_ofPiece (piece : List Char) : (ofPiece piece).value = valueOf piece := rfl

theorem read_of_mem {piece : List Char} (h : '=' ∈ piece) :
    read piece = if lowerAscii (nameText piece) = [] ∨
        (lowerAscii (nameText piece)).all Char.isAlphanum = false then
      .error (.invalidName (String.ofList piece)) else .ok (ofPiece piece) := by
  rw [read, splitFirst?_of_mem h]
  rfl

theorem read_eq_ok_iff {piece : List Char} {t : Tag} :
    read piece = .ok t ↔ IsTag piece ∧ t = ofPiece piece := by
  by_cases h : '=' ∈ piece
  · have hname : IsTag piece ↔ ¬ (lowerAscii (nameText piece) = [] ∨
        (lowerAscii (nameText piece)).all Char.isAlphanum = false) := by
      rw [← List.length_eq_zero_iff, length_lowerAscii, List.length_eq_zero_iff, lowerAscii,
        List.all_map, Function.comp_def]
      simp only [isAlphanum_toLower, not_or, Bool.not_eq_false, List.all_eq_true]
      exact ⟨fun h => ⟨h.name_ne_nil, h.name_alphanum⟩, fun hname => ⟨h, hname.1, hname.2⟩⟩
    rw [read_of_mem h, hname]
    split_ifs with hbad
    · exact iff_of_false (by simp) fun htag => htag.1 hbad
    · rw [Except.ok.injEq]
      exact ⟨fun ht => ⟨hbad, ht.symm⟩, fun ht => ht.2.symm⟩
  · have hread : read piece = .error (.malformedTag (String.ofList piece)) := by
      rw [read, splitFirst?_eq_none_iff.2 h]
    rw [hread]
    exact iff_of_false (by simp) fun htag => h htag.1.equals

theorem not_isTag_of_read_eq_error {piece : List Char} {problem : Problem}
    (h : read piece = .error problem) : ¬ IsTag piece := by
  intro htag
  rw [read_eq_ok_iff.2 ⟨htag, rfl⟩] at h
  cases h

theorem mapM_read_eq_ok_iff {ps : List (List Char)} {ts : List Tag} :
    ps.mapM read = .ok ts ↔ (∀ piece ∈ ps, IsTag piece) ∧ ts = ps.map ofPiece := by
  induction ps generalizing ts with
  | nil => simp [pure, Except.pure, eq_comm]
  | cons p ps ih =>
    rw [List.mapM_cons, List.forall_mem_cons, List.map_cons]
    cases hp : read p with
    | error problem => exact iff_of_false nofun fun h => not_isTag_of_read_eq_error hp h.1.1
    | ok t =>
      obtain ⟨htag, rfl⟩ := read_eq_ok_iff.1 hp
      cases hps : ps.mapM read with
      | error problem =>
        refine iff_of_false nofun fun h => ?_
        rw [ih.2 ⟨h.1.2, rfl⟩] at hps
        cases hps
      | ok us =>
        obtain ⟨htags, rfl⟩ := ih.1 hps
        exact ⟨fun h => ⟨⟨htag, htags⟩, (Except.ok.inj h).symm⟩, fun h => h.2 ▸ rfl⟩

theorem isVersion_ofPiece (piece : List Char) : (ofPiece piece).isVersion = true ↔
    nameOf piece = "v" ∧ folded (valueText piece) = "dmarc1" := by
  rw [isVersion, Bool.and_eq_true, decide_eq_true_iff, decide_eq_true_iff, ofPiece, valueOf,
    String.toList_ofList]

end Tag

theorem accepted_cons_iff {first : List Char} {rest : List (List Char)} :
    Accepted (first :: rest) ↔ IsTag first ∧ (Tag.ofPiece first).isVersion = true ∧
      ∀ piece ∈ rest, IsTag piece := by
  rw [Tag.isVersion_ofPiece]
  constructor
  · rintro ⟨htag, first, hfirst, hversion⟩
    cases hfirst
    exact ⟨htag _ List.mem_cons_self, hversion, fun p hp => htag p (List.mem_cons_of_mem _ hp)⟩
  · rintro ⟨htag, hversion, hrest⟩
    exact ⟨List.forall_mem_cons.2 ⟨htag, hrest⟩, first, rfl, hversion⟩

theorem readTags_eq_ok_iff {ps : List (List Char)} {ts : List Tag} :
    readTags ps = .ok ts ↔ Accepted ps ∧ ts = ps.map Tag.ofPiece := by
  cases ps with
  | nil =>
    refine iff_of_false (by rintro ⟨⟩) fun h => ?_
    obtain ⟨first, hfirst, -⟩ := h.1.version
    cases hfirst
  | cons first rest =>
    rw [accepted_cons_iff, readTags]
    cases hfirst : Tag.read first with
    | error problem =>
      exact iff_of_false (by rintro ⟨⟩) fun h => Tag.not_isTag_of_read_eq_error hfirst h.1.1
    | ok t =>
      obtain ⟨htag, rfl⟩ := Tag.read_eq_ok_iff.1 hfirst
      dsimp only [bind, Except.bind]
      by_cases hversion : (Tag.ofPiece first).isVersion = true
      · rw [if_pos hversion]
        cases hrest : rest.mapM Tag.read with
        | error problem =>
          refine iff_of_false (by rintro ⟨⟩) fun h => ?_
          rw [Tag.mapM_read_eq_ok_iff.2 ⟨h.1.2.2, rfl⟩] at hrest
          cases hrest
        | ok us =>
          obtain ⟨htags, rfl⟩ := Tag.mapM_read_eq_ok_iff.1 hrest
          exact ⟨fun h => ⟨⟨htag, hversion, htags⟩, (Except.ok.inj h).symm⟩, fun h => h.2 ▸ rfl⟩
      · rw [if_neg hversion]
        exact iff_of_false (by rintro ⟨⟩) fun h => hversion h.1.2.1

namespace Record

theorem parse_of_accepted {s : String} (h : Accepted (pieces s.toList)) :
    parse s = ofTags ((pieces s.toList).map Tag.ofPiece) := by
  rw [parse_eq, readTags_eq_ok_iff.2 ⟨h, rfl⟩]

theorem parse_of_not_accepted {s : String} (h : ¬ Accepted (pieces s.toList)) :
    ∃ problem, parse s = ⟨Tags.empty, [problem]⟩ := by
  rw [parse_eq]
  cases hread : readTags (pieces s.toList) with
  | ok ts => exact absurd (readTags_eq_ok_iff.1 hread).1 h
  | error problem => exact ⟨problem, rfl⟩

theorem isEmpty_parse_eq_false_iff (s : String) :
    (parse s).isEmpty = false ↔ Accepted (pieces s.toList) := by
  by_cases h : Accepted (pieces s.toList)
  · obtain ⟨first, hfirst, -⟩ := h.version
    have hne : pieces s.toList ≠ [] := List.ne_nil_of_mem (List.mem_of_mem_head? hfirst)
    rw [parse_of_accepted h, isEmpty_ofTags]
    simp [hne, h]
  · obtain ⟨problem, hparse⟩ := parse_of_not_accepted h
    rw [hparse]
    exact iff_of_false nofun h

end Record

/-- Repetitions are told with reference to the pieces in front. -/
theorem repeated_map_ofPiece {earlier : List String} (before rest : List (List Char))
    (h : ∀ name, name ∈ earlier ↔ name ∈ before.map nameOf) :
    repeated earlier (rest.map Tag.ofPiece) =
      (((rest.zipIdx before.length).filter fun x =>
        nameOf x.1 ∈ ((before ++ rest).take x.2).map nameOf).map Prod.fst).map
          fun piece => .repeatedTag (nameOf piece) := by
  induction rest generalizing earlier before with
  | nil => rfl
  | cons p rest ih =>
    have hnext {names : List String}
        (h' : ∀ name, name ∈ names ↔ name = nameOf p ∨ name ∈ earlier) :
        repeated names (rest.map Tag.ofPiece) = _ :=
      ih (before ++ [p]) fun name => by simp [h', h, or_comm]
    simp only [List.length_append, List.length_singleton, List.append_assoc,
      List.singleton_append] at hnext
    have hcut : (before ++ p :: rest).take before.length = before := by simp
    rw [List.map_cons, repeated, List.zipIdx_cons, List.filter_cons, Tag.name_ofPiece]
    by_cases hp : nameOf p ∈ earlier
    · have htold : nameOf p ∈ ((before ++ p :: rest).take before.length).map nameOf := by
        rwa [hcut, ← h]
      rw [if_pos hp, if_pos (decide_eq_true htold), hnext fun name => ?_]
      · rfl
      · exact ⟨.inr, fun h' => h'.elim (fun heq => heq ▸ hp) id⟩
    · have hnew : nameOf p ∉ ((before ++ p :: rest).take before.length).map nameOf := by
        rwa [hcut, ← h]
      rw [if_neg hp, if_neg (by simpa using hnew), hnext fun name => List.mem_cons]

namespace Record

/-- What a record says of the pieces of its text: of each name the value that it is first written with,
and of each piece that repeats a name that it does. -/
structure Says (record : Record) (ps : List (List Char)) : Prop where
  keys : ∀ name, name ∈ record.tags.keys ↔ ∃ piece ∈ ps, nameOf piece = name
  value : ∀ name, record.tags.get? name = (ps.find? (nameOf · = name)).map valueOf
  tag : ∀ name, record.tag? name = (ps.find? (nameOf · = folded name.toList)).map valueOf
  messages : record.messages = (repeats ps).map fun piece => .repeatedTag (nameOf piece)
  size : record.tags.size + record.messages.length = ps.length

theorem says_ofTags (ps : List (List Char)) : (ofTags (ps.map Tag.ofPiece)).Says ps := by
  have hvalue (name : String) : (ofTags (ps.map Tag.ofPiece)).tags.get? name =
      (ps.find? (nameOf · = name)).map valueOf := by
    rw [get?_ofTags, List.find?_map, Option.map_map]
    rfl
  refine ⟨fun name => ?_, hvalue, fun name => hvalue _, repeated_map_ofPiece [] ps (by simp), ?_⟩
  · simp only [mem_keys_ofTags_iff, List.mem_map, exists_exists_and_eq_and, Tag.name_ofPiece]
  · rw [size_add_length_messages, List.length_map]

end Record

theorem outcome_published_eq_sight (r : Resolver) (domain : String) : (published r domain).outcome =
    (sight List.head? (r (DomainName.dmarc domain))).map (Option.map Record.parse) :=
  outcome_map_resolveTxt _ (Option.map Record.parse)

theorem outcome_verdict_of_first {r : Resolver} {domain first : String} {rest : List String}
    (h : r (DomainName.dmarc domain) = .ok (first :: rest)) :
    (verdict r domain).outcome = .ok (Record.parse first).state := by
  rw [verdict, Lookup.outcome_map, outcome_published_eq_sight, h, sight_ok]
  rfl

theorem outcome_verdict_of_no_first {r : Resolver} {domain : String}
    (hsettled : Settled r (DomainName.dmarc domain))
    (h : ∀ first rest, r (DomainName.dmarc domain) ≠ .ok (first :: rest)) :
    (verdict r domain).outcome = .ok .notSetup := by
  have hunseen : Unseen List.head? (r (DomainName.dmarc domain)) := by
    cases hanswer : r (DomainName.dmarc domain) with
    | error e => exact .absent (hsettled e hanswer)
    | ok records =>
      cases records with
      | nil => exact .overlooked rfl
      | cons first rest => exact absurd hanswer (h first rest)
  rw [verdict, Lookup.outcome_map, outcome_published_eq_sight, hunseen.sight_eq rfl]
  rfl

theorem Record.state_parse (s : String) :
    (parse s).state = if Accepted (pieces s.toList) then .setup else .invalid := by
  rw [state]
  split_ifs with hempty haccepted haccepted
  · rw [← isEmpty_parse_eq_false_iff, hempty] at haccepted
    cases haccepted
  · rfl
  · rfl
  · exact absurd ((isEmpty_parse_eq_false_iff s).1 (Bool.eq_false_of_not_eq_true hempty)) haccepted

/-- A text has tags just when its pieces are accepted, and then it says of them what there is to say; else
one message tells what is wrong. A domain that gives no transient answer is set up when the first of its
texts is accepted, and without a text it is not. -/
theorem parse_says_pieces (s : String) (r : Resolver) (domain : String) :
    ((Record.parse s).isEmpty = false ↔ Accepted (pieces s.toList)) ∧
    (Accepted (pieces s.toList) → (Record.parse s).Says (pieces s.toList)) ∧
    (¬ Accepted (pieces s.toList) →
      (Record.parse s).tags = Tags.empty ∧ (Record.parse s).messages.length = 1) ∧
    (Settled r (DomainName.dmarc domain) →
      ((verdict r domain).outcome = .ok .setup ↔ ∃ first rest,
        r (DomainName.dmarc domain) = .ok (first :: rest) ∧ Accepted (pieces first.toList)) ∧
      ((verdict r domain).outcome = .ok .invalid ↔ ∃ first rest,
        r (DomainName.dmarc domain) = .ok (first :: rest) ∧ ¬ Accepted (pieces first.toList)) ∧
      ((verdict r domain).outcome = .ok .notSetup ↔
        ∀ first rest, r (DomainName.dmarc domain) ≠ .ok (first :: rest))) := by
  refine ⟨Record.isEmpty_parse_eq_false_iff s, fun h => ?_, fun h => ?_, fun hsettled => ?_⟩
  · rw [Record.parse_of_accepted h]
    exact Record.says_ofTags _
  · obtain ⟨problem, hparse⟩ := Record.parse_of_not_accepted h
    rw [hparse]
    exact ⟨rfl, rfl⟩
  · by_cases hfirst : ∃ first rest, r (DomainName.dmarc domain) = .ok (first :: rest)
    · obtain ⟨first, rest, hanswer⟩ := hfirst
      rw [outcome_verdict_of_first hanswer, Record.state_parse, hanswer]
      split_ifs with haccepted <;> simp [haccepted]
    · push Not at hfirst
      rw [outcome_verdict_of_no_first hsettled hfirst]
      simp [hfirst]

/-- A record with a name in two spellings, an empty piece and an equals sign in a value. -/
def oddRecord : String := " V = dmarc1 ;; P=none\t; p=reject;rua=mailto:a=b; "

def oddZone : Zone := Zone.empty.addTxt "_dmarc.example.com" [oddRecord, "v=DMARC1"]

theorem parse_says_pieces_oddRecord :
    Accepted (pieces oddRecord.toList) ∧ Settled oddZone.answer (DomainName.dmarc "Example.com.") ∧
      (Record.parse oddRecord).tag? "RUA" = some "mailto:a=b" ∧
      (Record.parse oddRecord).messages = [.repeatedTag "p"] ∧
      (verdict oddZone.answer "Example.com.").outcome = .ok .setup := by
  have haccepted : Accepted (pieces oddRecord.toList) := by decide +kernel
  have hanswer : oddZone.answer (DomainName.dmarc "Example.com.") = .ok [oddRecord, "v=DMARC1"] := by
    rfl
  have hsettled : Settled oddZone.answer (DomainName.dmarc "Example.com.") := by
    intro e he
    rw [hanswer] at he
    cases he
  obtain ⟨-, hsaid, -, hverdict⟩ := parse_says_pieces oddRecord oddZone.answer "Example.com."
  refine ⟨haccepted, hsettled, ?_, ?_, (hverdict hsettled).1.2 ⟨_, _, hanswer, haccepted⟩⟩
  · rw [(hsaid haccepted).tag]
    decide +kernel
  · rw [(hsaid haccepted).messages]
    decide +kernel

end SenderAuth.Dmarc
