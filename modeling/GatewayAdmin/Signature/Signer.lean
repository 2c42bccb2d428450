import GatewayAdmin.Digest
import GatewayAdmin.Instant
import GatewayAdmin.Request
import GatewayAdmin.Signature.Canonical
import GatewayAdmin.Text.Quoted
/-! Signing: the four header fields that a gateway checks, made from the request, the key pair and
the time. Every field is checked before the first is set, so a failure leaves no trace. What is
shown of a key pair never holds the secret. -/
namespace GatewayAdmin

def redacted : String := "<redacted>"

structure Credentials where
  accessKey : String
  secretKey : String
deriving DecidableEq

/-- A record with its fields in braces, as messages show it. -/
def describe (name : String) (fields : List (String × String)) : String :=
  let shown := fields.map fun f => f.1 ++ ": " ++ f.2
  name ++ " \x7b " ++ String.intercalate ", " shown ++ " \x7d"

namespace Credentials

def summary (c : Credentials) : String :=
  describe "Credentials" [
    ("access_key", Text.quoted c.accessKey),
    ("secret_key", Text.quoted redacted)]

end Credentials

/-! ### What a signature is bound to -/

namespace Scope

def algorithm : String := "AWS4-HMAC-SHA256"

def terminator : String := "aws4_request"

def credentialScope (dateStamp region service : String) : String :=
  dateStamp ++ "/" ++ region ++ "/" ++ service ++ "/" ++ terminator

def stringToSign (amzDate scope requestHash : String) : String :=
  algorithm ++ "\n" ++ amzDate ++ "\n" ++ scope ++ "\n" ++ requestHash

/-- Each part of the scope keys the digest of the next. -/
def signingKey (secretKey dateStamp region service : String) : List UInt8 :=
  let dateKey := Digest.hmacText (Text.utf8 ("AWS4" ++ secretKey)) dateStamp
  let regionKey := Digest.hmacText dateKey region
  let serviceKey := Digest.hmacText regionKey service
  Digest.hmacText serviceKey terminator

def signature (key : List UInt8) (text : String) : String := Digest.hex (Digest.hmacText key text)

end Scope

/-! ### Signatures -/

inductive SigningError where
  | unresolvableUri (uri : String)
  | invalidHeaderValue (name : String)
deriving DecidableEq

def SigningError.message : SigningError → String
  | unresolvableUri uri => "request URI has no resolvable host: " ++ Text.quoted uri
  | invalidHeaderValue name => "invalid value for header " ++ name

/-- The texts made on the way to a signature. -/
structure Signed where
  canonicalRequest : String
  stringToSign : String
  signature : String
  authorization : String
deriving DecidableEq

structure Signer where
  region : String := "default"
  service : String := "s3"
deriving DecidableEq

namespace Signer

/-- The host, with its port unless that is the default of the scheme. -/
def hostValue? (uri : Uri) : Option String := do
  let host ← uri.host?
  if host = "" then none
  else match uri.port? with
    | some port =>
      if uri.scheme?.bind Scheme.defaultPort = some port then some host
      else some (host ++ ":" ++ Text.decimal port)
    | none => some host

def authorizationValue (accessKey scope signature : String) : String :=
  Scope.algorithm ++ " Credential=" ++ accessKey ++ "/" ++ scope ++ ", SignedHeaders=" ++
    Canonical.signedHeaders ++ ", Signature=" ++ signature

/-- All that is signed, given the values of the signed headers and the date of the scope. -/
def texts (s : Signer) (c : Credentials) (method : Method) (uri : Uri)
    (v : Canonical.SignedValues) (dateStamp : String) : Signed :=
  let canonicalRequest := Canonical.request method.name uri v
  let scope := Scope.credentialScope dateStamp s.region s.service
  let stringToSign :=
    Scope.stringToSign v.amzDate scope (Digest.sha256Hex (Text.utf8 canonicalRequest))
  let key := Scope.signingKey c.secretKey dateStamp s.region s.service
  let signature := Scope.signature key stringToSign
  ⟨canonicalRequest, stringToSign, signature, authorizationValue c.accessKey scope signature⟩

def checkValue (name value : String) : Except SigningError Unit :=
  if isHeaderValue value then .ok () else .error (.invalidHeaderValue name)

def setFields (h : Headers) (amzDate host authorization : String) : Headers :=
  (((h.set "x-amz-date" (Text.utf8 amzDate)).set "x-amz-content-sha256"
    (Text.utf8 Canonical.unsignedPayload)).set "host" (Text.utf8 host)).set "authorization"
      (Text.utf8 authorization)

def sign (s : Signer) (r : Request) (c : Credentials) (t : Instant) :
    Except SigningError (Signed × Request) :=
  match hostValue? r.uri with
  | none => .error (.unresolvableUri r.uri.toText)
  | some host => do
    let signed := s.texts c r.method r.uri ⟨host, Canonical.unsignedPayload, t.amzDate⟩ t.dateStamp
    checkValue "x-amz-date" t.amzDate
    checkValue "host" host
    checkValue "authorization" signed.authorization
    .ok (signed, { r with headers := setFields r.headers t.amzDate host signed.authorization })

end Signer
end GatewayAdmin
