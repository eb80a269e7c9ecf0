import SenderAuth.Spf.Record
import SenderAuth.Text.Slice

/-!
SPF records read with every cut made at a byte position of the text that is cut. Reading comes to nothing as
soon as a text is cut where it cannot be, so that a result says that each cut on the way to it was in order.
-/
namespace SenderAuth.Spf.Slicing
open Text

def versionEnd : Nat := (String.ofList version).utf8ByteSize

/-- Whether a TXT string is an SPF record. The string is asked first whether it can be cut behind the tag, and
cut there again when what is in front is the tag. -/
def isSpf (s : String) : Option Bool :=
  let text := String.ofList (trimStart s.toList)
  match sliceTo? text versionEnd with
  | none => some false
  | some tag =>
    if lowerAscii tag.toList = version then do
      let rest ← sliceFrom? text versionEnd
      return rest.toList.head?.all isAsciiBlank
    else some false

def select (records : List String) : Option (Option String) := records.findM? isSpf

def strip (term : String) : Option (Qualifier × String) :=
  match term.toList.head?.bind Qualifier.ofSign? with
  | some q => (sliceFrom? term 1).map (q, ·)
  | none => some (.pass, term)

/-- The name of a mechanism and its argument. A slash that brings in the argument is the start of it. -/
def splitArgument (rest : String) : Option (String × Option String) :=
  match splitFirst? ':' rest.toList with
  | some (name, text) => some (String.ofList name, some (String.ofList text))
  | none =>
    match byteIndex? '/' rest.toList with
    | none => some (rest, none)
    | some i => do
      let name ← sliceTo? rest i
      let text ← sliceFrom? rest i
      return (name, some text)

def argument (behind : String) : Option String → Argument
  | none => .absent
  | some text =>
    if behind.toList.head? = some ':' then .colon text.toList else .slash text.toList.tail

def assemble (term : String) (qualifier : Qualifier) (rest name : String) (arg : Argument) :
    Except Diagnostic Directive :=
  match MechanismKind.ofName? (folded name.toList) with
  | none => .error (.unknownMechanism rest)
  | some kind =>
    match arg.mechanism kind with
    | .ok mechanism => .ok ⟨qualifier, mechanism⟩
    | .error fault => .error (.invalidArgument term fault)

def readDirective (term : String) : Option (Except Diagnostic Directive) := do
  let (qualifier, rest) ← strip term
  let (name, text) ← splitArgument rest
  let behind ← sliceFrom? rest name.utf8ByteSize
  return assemble term qualifier rest name (argument behind text)

/-- A modifier is read without a cut at a byte position. -/
def readTerm (term : List Char) : Option Term :=
  if (splitModifier? term).isSome then some (Term.read term)
  else do
    match ← readDirective (String.ofList term) with
    | .ok d => return .directive d
    | .error e => return .fault e

def parse (s : String) : Option Record := do
  let text := String.ofList (trim s.toList)
  if ← isSpf text then
    let rest ← sliceFrom? text versionEnd
    let terms ← (words rest.toList).mapM readTerm
    return .gather terms
  else return .unversioned (String.ofList ((words text.toList).headD []))

end SenderAuth.Spf.Slicing
