import SenderAuth.Text.Blank
import SenderAuth.Text.Casing

/-!
Domain names: the spelling that names are compared in, and the names at which DMARC and DKIM records
are published.
-/
namespace SenderAuth.DomainName
open Text

def dropRootDot (cs : List Char) : List Char :=
  if cs.getLast? = some '.' then cs.dropLast else cs

/-- Without the white space around it, in lower case as far as ASCII goes, without a final dot. -/
def normalize (name : String) : String :=
  String.ofList (dropRootDot (lowerAscii (trim name.toList)))

def Same (a b : String) : Prop := normalize a = normalize b

instance (a b : String) : Decidable (Same a b) := inferInstanceAs (Decidable (_ = _))

theorem Same.refl (a : String) : Same a a := rfl

theorem Same.symm {a b : String} (h : Same a b) : Same b a := Eq.symm h

theorem Same.trans {a b c : String} (h : Same a b) (k : Same b c) : Same a c := Eq.trans h k

def dmarc (domain : String) : String := "_dmarc." ++ normalize domain

def dkim (selector domain : String) : String :=
  normalize selector ++ "._domainkey." ++ normalize domain

theorem dmarc_eq_of_same {a b : String} (h : Same a b) : dmarc a = dmarc b := by
  unfold dmarc
  rw [show normalize a = normalize b from h]

theorem dkim_eq_of_same {a b : String} (selector : String) (h : Same a b) :
    dkim selector a = dkim selector b := by
  unfold dkim
  rw [show normalize a = normalize b from h]

end SenderAuth.DomainName
