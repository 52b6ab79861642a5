import Gatekeeper.Headers
import Gatekeeper.Text.Diagnostic
import Gatekeeper.Text.Utf8
import Gatekeeper.Url.Basic

/-!
# Exchanges with the provider

One request and the response to it, or the reason why there is none.
-/

namespace Gatekeeper

def acceptJwt : String := "application/jwt"

def contentTypeJson : String := "application/json"

structure Request where
  url : Url
  accept : String
  contentType : String
  body : List UInt8

namespace Request

def post (url : Url) (body : List UInt8) : Request where
  url := url
  accept := acceptJwt
  contentType := contentTypeJson
  body := body

/-- The body holds a password, so that only its size shows. -/
def diagnostic (request : Request) : String :=
  Diagnostic.record "ProviderRequest" [
    ("url", Diagnostic.quoted request.url.text),
    ("accept", Diagnostic.quoted request.accept),
    ("content_type", Diagnostic.quoted request.contentType),
    ("body_len", toString request.body.length)]

def line (request : Request) : String :=
  "POST " ++ request.url.target ++ " HTTP/1.1"

end Request

structure Response where
  status : Nat
  contentType : Option String
  body : List UInt8

namespace Response

def bodyText (response : Response) : String :=
  Utf8.lenient response.body

def isBlank (b : UInt8) : Bool :=
  b = 0x20 || b = 0x09

def trim (value : List UInt8) : List UInt8 :=
  ((value.dropWhile isBlank).reverse.dropWhile isBlank).reverse

def hasNoBody (status : Nat) : Bool :=
  status = 204 || status = 304

/-- A response as it comes over the wire.  A content type that is not visible does not count. -/
def received (status : Nat) (headers : Headers) (body : List UInt8) : Response where
  status := status
  contentType :=
    ((headers.first? "content-type").bind fun value => HeaderValue.text? (trim value)).map
      String.ofList
  body := if hasNoBody status then [] else body

end Response

inductive TransportFault where
  | network (cause : Option String)
  | io (cause : String)
deriving DecidableEq, Repr

namespace TransportFault

def message : TransportFault → String
  | .network _ => "Network error occurred while calling the identity provider."
  | .io _ => "I/O error occurred while calling the identity provider."

def causes : TransportFault → List String
  | .network cause => cause.toList
  | .io cause => [cause]

end TransportFault

abbrev Transport := Request → Except TransportFault Response

end Gatekeeper
