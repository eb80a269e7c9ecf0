import SenderAuth.Dmarc.Record

/-!
What makes a text a DMARC record, said of its pieces, and which of the pieces count in it.
-/
namespace SenderAuth.Dmarc
open Text

/-- What stands in front of the first equals sign of a piece, without the white space around it. -/
def nameText (piece : List Char) : List Char := trim (piece.takeWhile (· ≠ '='))

/-- What stands behind the first equals sign, without the white space around it. -/
def valueText (piece : List Char) : List Char := trim (piece.dropWhile (· ≠ '=')).tail

def nameOf (piece : List Char) : String := folded (nameText piece)

def valueOf (piece : List Char) : String := String.ofList (valueText piece)

structure IsTag (piece : List Char) : Prop where
  equals : '=' ∈ piece
  name_ne_nil : nameText piece ≠ []
  name_alphanum : ∀ c ∈ nameText piece, c.isAlphanum = true

instance (piece : List Char) : Decidable (IsTag piece) :=
  decidable_of_iff ('=' ∈ piece ∧ nameText piece ≠ [] ∧
      (nameText piece).all Char.isAlphanum = true)
    ⟨fun h => ⟨h.1, h.2.1, List.all_eq_true.1 h.2.2⟩,
      fun h => ⟨h.equals, h.name_ne_nil, List.all_eq_true.2 h.name_alphanum⟩⟩

/-- All pieces are tags, and the first is the version. -/
structure Accepted (ps : List (List Char)) : Prop where
  isTag : ∀ piece ∈ ps, IsTag piece
  version : ∃ first ∈ ps.head?, nameOf first = "v" ∧ folded (valueText first) = "dmarc1"

instance (ps : List (List Char)) : Decidable (Accepted ps) :=
  decidable_of_iff ((∀ piece ∈ ps, IsTag piece) ∧
      ∃ first ∈ ps.head?, nameOf first = "v" ∧ folded (valueText first) = "dmarc1")
    ⟨fun h => ⟨h.1, h.2⟩, fun h => ⟨h.isTag, h.version⟩⟩

/-- The pieces whose name one of those before them has as well, in order. -/
def repeats (ps : List (List Char)) : List (List Char) :=
  (ps.zipIdx.filter fun x => nameOf x.1 ∈ (ps.take x.2).map nameOf).map Prod.fst

end SenderAuth.Dmarc
