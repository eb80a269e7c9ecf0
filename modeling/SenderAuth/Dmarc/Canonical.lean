import SenderAuth.Dmarc.Record

/-!
The canonical text of a DMARC record: the version stands first, each tag has one value, and there is no
white space but for a blank behind each semicolon.
-/
namespace SenderAuth.Dmarc
open Text

def renderTag (e : String × String) : List Char := e.1.toList ++ '=' :: e.2.toList

def spell (version : String) (others : Entries) : String :=
  String.ofList (renderTag ("v", version) ++ others.flatMap fun e => ';' :: ' ' :: renderTag e)

/-- A tag as it can be written: its name is made of small letters and digits, and its value holds no
semicolon and has no white space around it. -/
structure IsEntry (e : String × String) : Prop where
  name_ne : e.1 ≠ ""
  name_chars : ∀ c ∈ e.1.toList, c.isLower = true ∨ c.isDigit = true
  value_trimmed : IsTrimmed e.2.toList
  value_semicolon : ';' ∉ e.2.toList

end SenderAuth.Dmarc
