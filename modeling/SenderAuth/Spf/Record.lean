import SenderAuth.Spf.Term
import SenderAuth.Text.Blank

/-!
Reading the text of an SPF record. Reading never fails: what is wrong is told in the messages of the
record.
-/
namespace SenderAuth.Spf
open Text

structure Record where
  directives : List Directive
  redirect : Option String
  explanation : Option String
  messages : List Diagnostic
  deriving DecidableEq

namespace Record

/-- A record is usable when no message is an error. -/
def valid (r : Record) : Bool := r.messages.all (!·.isError)

def hasMessage (r : Record) (kind : DiagnosticKind) (quoted : List String) : Bool :=
  r.messages.any fun d => decide (d.kind = kind ∧ d.quoted = quoted)

/-- What is made of a text without the version tag, given its first word. -/
def unversioned (found : String) : Record where
  directives := []
  redirect := none
  explanation := none
  messages := [.invalidVersion found]

end Record

/-- A record while its terms are read. -/
structure Draft where
  directives : List Directive := []
  redirect : Option String := none
  explanation : Option String := none
  messages : List Diagnostic := []
  seenAll : Bool := false
  /-- whether a mechanism after `all` was already reported -/
  warned : Bool := false

namespace Draft

def value? (d : Draft) : Modifier → Option String
  | .redirect => d.redirect
  | .exp => d.explanation

def set (d : Draft) (value : String) : Modifier → Draft
  | .redirect => { d with redirect := some value }
  | .exp => { d with explanation := some value }

def tell (d : Draft) (message : Diagnostic) : Draft := { d with messages := d.messages ++ [message] }

/-- Takes in the next term. A modifier that has its value already is told whatever stands behind it. -/
def add (d : Draft) : Term → Draft
  | .directive directive =>
    let told := if d.seenAll && !d.warned then { d.tell .mechanismAfterAll with warned := true } else d
    { told with
      directives := d.directives ++ [directive]
      seenAll := d.seenAll || directive.isAll }
  | .modifier m value =>
    if (d.value? m).isSome then d.tell (.duplicateModifier m) else d.set value m
  | .valueless m text =>
    if (d.value? m).isSome then d.tell (.duplicateModifier m)
    else d.tell (.invalidArgument text .valueRequired)
  | .unknownModifier => d
  | .fault message => d.tell message

def finish (d : Draft) : Record where
  directives := d.directives
  redirect := d.redirect
  explanation := d.explanation
  messages :=
    if d.seenAll || d.redirect.isSome then d.messages else d.messages ++ [.noAllOrRedirect]

end Draft

def Record.gather (ts : List Term) : Record := (ts.foldl Draft.add {}).finish

def version : List Char := ['v', '=', 's', 'p', 'f', '1']

/-- The text behind the version tag, which is written in any case and is followed by white space of
ASCII or by nothing. -/
def afterVersion? (cs : List Char) : Option (List Char) :=
  let rest := cs.drop version.length
  if lowerAscii (cs.take version.length) = version ∧ rest.head?.all isAsciiBlank = true then some rest
  else none

theorem afterVersion?_eq_some_iff {cs rest : List Char} :
    afterVersion? cs = some rest ↔
      ∃ tag, cs = tag ++ rest ∧ lowerAscii tag = version ∧ ∀ c ∈ rest.head?, isAsciiBlank c = true := by
  unfold afterVersion?
  constructor
  · intro h
    simp only [Option.ite_none_right_eq_some, Option.some.injEq] at h
    obtain ⟨⟨htag, hrest⟩, rfl⟩ := h
    exact ⟨cs.take version.length, (List.take_append_drop ..).symm, htag,
      fun c hc => by simpa [Option.mem_def.1 hc] using hrest⟩
  · rintro ⟨tag, rfl, htag, hrest⟩
    have hlen : tag.length = version.length := by rw [← htag, length_lowerAscii]
    have hall : rest.head?.all isAsciiBlank = true := by
      cases h : rest.head? with
      | none => rfl
      | some c => simpa using hrest c h
    simp [← hlen, htag, hall]

/-- Whether a TXT string is an SPF record. -/
def isSpf (s : String) : Bool := (afterVersion? (trimStart s.toList)).isSome

/-- The SPF record among the TXT strings of a domain: the first one. -/
def select (records : List String) : Option String := records.find? isSpf

@[simp] theorem select_nil : select [] = none := rfl

def Record.parse (s : String) : Record :=
  match afterVersion? (trim s.toList) with
  | some rest => gather ((words rest).map Term.read)
  | none => unversioned (String.ofList ((words s.toList).headD []))

end SenderAuth.Spf
