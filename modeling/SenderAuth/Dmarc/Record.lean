import SenderAuth.Dmarc.Tags
import SenderAuth.Text.Blank
import SenderAuth.Text.Casing
import SenderAuth.Text.Split

/-!
Reading the text of a DMARC record: tags `name=value` between semicolons, the first of which is the
version. One malformed tag spoils the record.
-/
namespace SenderAuth.Dmarc
open Text

inductive Policy
  | none | quarantine | reject
  deriving DecidableEq, Repr

namespace Policy

def name : Policy → String
  | none => "none"
  | quarantine => "quarantine"
  | reject => "reject"

def ofName? (s : String) : Option Policy :=
  [none, quarantine, reject].find? (·.name = folded s.toList)

end Policy

/-- What there is to say about a record. All but a repeated tag spoil it. -/
inductive Problem
  | emptyRecord
  | malformedTag (piece : String)
  | invalidName (piece : String)
  | wrongStart (piece : String)
  | repeatedTag (name : String)
  deriving DecidableEq, Repr

def Problem.message : Problem → String
  | emptyRecord => "empty record"
  | malformedTag piece => "malformed term: '" ++ piece ++ "'"
  | invalidName piece => "invalid tag name in '" ++ piece ++ "'"
  | wrongStart piece => "record must start with v=DMARC1, found '" ++ piece ++ "'"
  | repeatedTag name => "duplicate tag '" ++ name ++ "' ignored"

structure Tag where
  name : String
  value : String
  deriving DecidableEq, Repr

namespace Tag

/-- The name, in lower case, and the value stand around the first equals sign, and the white space
around them does not count. A name is made of letters and digits. -/
def read (piece : List Char) : Except Problem Tag :=
  match splitFirst? '=' piece with
  | none => .error (.malformedTag (String.ofList piece))
  | some (before, after) =>
    let name := lowerAscii (trim before)
    if name = [] ∨ name.all Char.isAlphanum = false then
      .error (.invalidName (String.ofList piece))
    else .ok ⟨String.ofList name, String.ofList (trim after)⟩

def isVersion (t : Tag) : Bool := t.name = "v" && folded t.value.toList = "dmarc1"

end Tag

/-- The pieces between semicolons, trimmed, without the empty ones. -/
def pieces (cs : List Char) : List (List Char) :=
  ((cs.splitOn ';').map trim).filter (· ≠ [])

@[ext] structure Record where
  tags : Tags := Tags.empty
  messages : List Problem := []
  deriving DecidableEq

namespace Record

/-- Takes in the next piece. As long as there is no tag, the next one has to be the version; a tag whose name
is there already is told and passed over. -/
def addPiece (r : Record) (piece : List Char) : Except Problem Record := do
  let tag ← Tag.read piece
  if r.tags.isEmpty = true ∧ tag.isVersion = false then
    .error (.wrongStart (String.ofList piece))
  else if (r.tags.get? tag.name).isSome then
    return { r with messages := r.messages ++ [.repeatedTag tag.name] }
  else return { r with tags := r.tags.insert tag.name tag.value }

def readPieces (ps : List (List Char)) : Except Problem Record := do
  let r ← ps.foldlM addPiece {}
  if r.tags.isEmpty then .error .emptyRecord else return r

def parse (s : String) : Record :=
  match readPieces (pieces s.toList) with
  | .ok r => r
  | .error problem => { messages := [problem] }

def isEmpty (r : Record) : Bool := r.tags.isEmpty

/-- The value of a tag, whose name may be given in any case of letters. -/
def tag? (r : Record) (name : String) : Option String := r.tags.get? (folded name.toList)

/-- What the domain wants done with mail that fails. -/
def policy (r : Record) : Option Policy := (r.tag? "p").bind Policy.ofName?

end Record
end SenderAuth.Dmarc
