import GatewayAdmin.Percent
import GatewayAdmin.Text.Cut
import GatewayAdmin.Uri
/-! The canonical request: nine lines that are the same for every spelling of one request.
`segments` and `pairs` say what a path and a query mean; their canonical forms are written from
these views alone. -/
namespace GatewayAdmin.Canonical

open Text

/-- Admin requests are signed without their payload. -/
def unsignedPayload : String := "UNSIGNED-PAYLOAD"

def signedHeaders : String := "host;x-amz-content-sha256;x-amz-date"

/-- The octets of each part of a path between slashes. The empty path is the root. -/
def segments (path : String) : List (List UInt8) :=
  let cs := if path = "" then ['/'] else path.toList
  (cs.splitOn '/').map Percent.decode

def path (p : String) : String :=
  String.ofList (['/'].intercalate ((segments p).map Percent.encode))

abbrev Pair := List UInt8 × List UInt8

def pairOfField (field : List Char) : Pair :=
  let p := splitFirst '=' field
  (Percent.decode p.1, Percent.decode (p.2.getD []))

/-- The octets of the keys and values of a query in reading order, empty fields left out. -/
def pairsOf (cs : List Char) : List Pair :=
  ((cs.splitOn '&').filter (!·.isEmpty)).map pairOfField

def dropQuestionMark : List Char → List Char
  | '?' :: cs => cs
  | cs => cs

/-- One question mark may stand before a query. -/
def pairs (query : String) : List Pair := pairsOf (dropQuestionMark query.toList)

/-- Byte order of the keys, then of the values. -/
def pairLe (a b : Pair) : Bool :=
  if a.1 = b.1 then decide (a.2 ≤ b.2) else decide (a.1 ≤ b.1)

def sortPairs (ps : List Pair) : List Pair := ps.mergeSort pairLe

def pairChars (p : Pair) : List Char := Percent.encode p.1 ++ '=' :: Percent.encode p.2

def query (q : String) : String :=
  String.ofList (['&'].intercalate ((sortPairs (pairs q)).map pairChars))

/-- The values of the three headers that are signed. -/
structure SignedValues where
  host : String
  contentSha256 : String
  amzDate : String
deriving DecidableEq

def headers (v : SignedValues) : String :=
  "host:" ++ trim v.host ++ "\nx-amz-content-sha256:" ++ trim v.contentSha256 ++
    "\nx-amz-date:" ++ trim v.amzDate ++ "\n"

def request (method : String) (uri : Uri) (v : SignedValues) : String :=
  method ++ "\n" ++ path uri.path ++ "\n" ++ query (uri.query?.getD "") ++ "\n" ++ headers v ++
    "\n" ++ signedHeaders ++ "\n" ++ unsignedPayload

end GatewayAdmin.Canonical
