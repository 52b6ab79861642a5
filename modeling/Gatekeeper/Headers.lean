import Gatekeeper.Text.Ascii

/-!
# Headers

The headers of a message in their order.  Names are the same in any case.
-/

namespace Gatekeeper

abbrev Headers := List (String × List UInt8)

namespace Headers

def first? (headers : Headers) (name : String) : Option (List UInt8) :=
  (headers.find? fun header => Ascii.lowerText header.1 = Ascii.lowerText name).map Prod.snd

end Headers

namespace HeaderValue

def text? (value : List UInt8) : Option (List Char) :=
  if value.all Ascii.isVisible then some (value.map fun b => Char.ofNat b.toNat) else none

end HeaderValue
end Gatekeeper
