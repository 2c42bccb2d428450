import GatewayAdmin.Json.Reader
import GatewayAdmin.Text.Cut
/-! Replies that report a failure. A body with a reason code becomes a status error; any other body
is kept as a text that could not be made sense of. -/
namespace GatewayAdmin

/-- A reason code, whether the catalogue has it or not. -/
structure Reason where
  code : String
deriving DecidableEq

namespace Reason

def known : List String := [
  "UserAlreadyExists", "NoSuchUser", "InvalidAccessKey", "InvalidSecretKey", "InvalidKeyType",
  "KeyExists", "EmailExists", "InvalidCapability", "SubuserExists", "NoSuchSubUser",
  "InvalidAccess", "IndexRepairFailed", "BucketNotEmpty", "ObjectRemovalFailed",
  "BucketUnlinkFailed", "BucketLinkFailed", "NoSuchObject", "IncompleteBody", "NoSuchCap",
  "InternalError", "AccessDenied", "NoSuchBucket", "NoSuchKey", "InvalidArgument", "Unknown",
  "SignatureDoesNotMatch", "AccountAlreadyExists"]

def unknown : Reason := ⟨"Unknown"⟩

def isKnown (r : Reason) : Bool := known.contains r.code

end Reason

structure Refusal where
  code : String
  requestId : String
  hostId : String
deriving DecidableEq

namespace Refusal

def message (e : Refusal) : String := Text.trim (e.code ++ " " ++ e.requestId ++ " " ++ e.hostId)

def hasReason (e : Refusal) (r : Reason) : Bool := e.code = r.code

/-- The entry of the catalogue for the code. -/
def catalogued (e : Refusal) : Reason :=
  if (Reason.mk e.code).isKnown then ⟨e.code⟩ else .unknown

end Refusal

/-- The body as text, and the fault of its JSON text if that is what is wrong with it. -/
structure UnparsableReply where
  body : String
  cause : Option Json.Fault := none
deriving DecidableEq

def UnparsableReply.message (e : UnparsableReply) : String :=
  "failed to unmarshal radosgw http response. " ++ e.body

inductive ErrorReply where
  | status (e : Refusal)
  | unparsable (e : UnparsableReply)
deriving DecidableEq

namespace ErrorReply

open Json

def message : ErrorReply → String
  | status e => e.message
  | unparsable e => e.message

def readMembersOf : Draft → Read (List (String × Value))
  | .object members fault => readMembers (Draft.readValue (maxDepth - 1)) members fault
  | d => .error d.mismatch

/-- A member that may be absent or `null`, and is a text otherwise. -/
def textMember (members : List (String × Value)) (name : String) : Read (Option String) :=
  match members.lookup name with
  | none | some .null => .ok none
  | some (.string s) => .ok (some s)
  | some _ => .error .mismatch

/-- The members that name a failure. -/
structure Payload where
  code : Option String
  requestId : Option String
  hostId : Option String
deriving DecidableEq

/-- Only an object counts. -/
def readPayload (body : List UInt8) : Read Payload := do
  let members ← readText readMembersOf body
  return ⟨← textMember members "Code", ← textMember members "RequestId",
    ← textMember members "HostId"⟩

/-- A code of nothing but white space says as little as none. -/
def ofBody (body : List UInt8) : ErrorReply :=
  match readPayload body with
  | .ok payload =>
    match payload.code.filter (!Text.allBlank ·) with
    | some code => .status ⟨code, payload.requestId.getD "", payload.hostId.getD ""⟩
    | none => .unparsable ⟨Text.ofUtf8Lossy body, none⟩
  | .error fault => .unparsable ⟨Text.ofUtf8Lossy body, some fault⟩

end ErrorReply
end GatewayAdmin
