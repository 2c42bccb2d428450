import GatewayAdmin.Arguments
import GatewayAdmin.Config
import GatewayAdmin.ErrorReply
import GatewayAdmin.Operation
import GatewayAdmin.Signature.Signer
/-! Clients: a checked configuration, the requests they sign, and whole calls against a transport
that keeps what it was sent and answers from a queue. -/
namespace GatewayAdmin

inductive SetupError where
  | missingEndpoint
  | missingAccessKey
  | missingSecretKey
  | invalidEndpoint (endpoint : String)
  | invalidRequestUrl (url : String)
  | signing (e : SigningError)
deriving DecidableEq

def SetupError.message : SetupError → String
  | missingEndpoint => "endpoint not set"
  | missingAccessKey => "access key not set"
  | missingSecretKey => "secret key not set"
  | invalidEndpoint endpoint =>
    "invalid endpoint " ++ Text.quoted endpoint ++
      ": expected an absolute URI such as http://host:port"
  | invalidRequestUrl url => "invalid request URL " ++ Text.quoted url
  | signing e => e.message

structure Response where
  status : Nat
  body : List UInt8
deriving DecidableEq

inductive TransportError where
  | invalidStatus
deriving DecidableEq

def TransportError.message : TransportError → String
  | invalidStatus => "invalid response: invalid status code"

/-- Responses that are still to come, and requests in the order in which they arrived. -/
structure Transport where
  queue : List Response
  sent : List Request
deriving DecidableEq

namespace Transport

def ofQueue (queue : List Response) : Transport := ⟨queue, []⟩

/-- Once the queue is empty, every answer is a success without a body. -/
def nextResponse (t : Transport) : Response := t.queue.headD ⟨200, []⟩

/-- The request is recorded and answered in one step, with no other request in between. -/
def send (t : Transport) (r : Request) : Except TransportError Response × Transport :=
  let response := t.nextResponse
  (if 100 ≤ response.status ∧ response.status ≤ 999 then .ok response else .error .invalidStatus,
    ⟨t.queue.tail, t.sent ++ [r]⟩)

end Transport

inductive CallError where
  | config (e : SetupError)
  | status (e : Refusal)
  | unparsable (e : UnparsableReply)
  | invalidInput (e : ArgumentError)
  | transport (e : TransportError)
  | decode (kind : ReplyKind) (body : String) (fault : Json.Fault)
deriving DecidableEq

namespace CallError

def ofReply : ErrorReply → CallError
  | .status e => status e
  | .unparsable e => unparsable e

/-- `said` is what the JSON decoder says of a body that it cannot read. -/
def message (said : String) : CallError → String
  | config e => e.message
  | status e => e.message
  | unparsable e => e.message
  | invalidInput e => "invalid input: " ++ e.message
  | transport e => e.message
  | decode kind _ _ => "failed to decode " ++ kind.typeName ++ " from response: " ++ said

/-- Was the call refused by the gateway with this reason? -/
def hasReason (e : CallError) (r : Reason) : Bool :=
  match e with
  | status e => e.hasReason r
  | _ => false

end CallError

structure Client where
  endpoint : String
  credentials : Credentials
  signer : Signer
deriving DecidableEq

namespace Client

/-- The endpoint without white space around it and without slashes at its end. -/
def trimEndpoint (endpoint : String) : String :=
  String.ofList (Text.dropEndWhile (· = '/') (Text.trimChars endpoint.toList))

def isEndpoint (s : String) : Bool :=
  (Uri.parse? s).any fun u => u.scheme?.isSome && u.host?.isSome

def ofConfig (c : Config) : Except SetupError Client :=
  if Text.allBlank c.endpoint then .error .missingEndpoint
  else if Text.allBlank c.accessKey then .error .missingAccessKey
  else if Text.allBlank c.secretKey then .error .missingSecretKey
  else
    let endpoint := trimEndpoint c.endpoint
    if isEndpoint endpoint then .ok ⟨endpoint, c.credentials, ⟨c.region, c.service⟩⟩
    else .error (.invalidEndpoint c.endpoint)

def signedRequest (c : Client) (method : Method) (resource : String) (args : Arguments)
    (time : Instant) : Except SetupError Request :=
  let url := AdminUrl.ofParts c.endpoint resource args.encode
  match Uri.parse? url with
  | none => .error (.invalidRequestUrl url)
  | some uri =>
    match c.signer.sign ⟨method, uri, Headers.empty⟩ c.credentials time with
    | .ok (_, request) => .ok request
    | .error e => .error (.signing e)

/-- A status from 300 upwards is a failure, whatever its meaning. -/
def outcome (response : Response) : Except CallError (List UInt8) :=
  if 300 ≤ response.status then .error (.ofReply (ErrorReply.ofBody response.body))
  else .ok response.body

def call (c : Client) (method : Method) (resource : String) (args : Arguments) (time : Instant)
    (t : Transport) : Except CallError (List UInt8) × Transport :=
  match c.signedRequest method resource args time with
  | .error e => (.error (.config e), t)
  | .ok request =>
    match t.send request with
    | (.ok response, t) => (outcome response, t)
    | (.error e, t) => (.error (.transport e), t)

def decodeReply (kind : ReplyKind) (body : List UInt8) : Except CallError Reply :=
  match kind.read body with
  | .ok reply => .ok reply
  | .error fault => .error (.decode kind (Text.ofUtf8Lossy body) fault)

/-- Arguments are checked before anything is sent. -/
def perform (c : Client) (op : Operation) (time : Instant) (t : Transport) :
    Except CallError (Option Reply) × Transport :=
  match op.arguments with
  | .error e => (.error (.invalidInput e), t)
  | .ok args =>
    let (result, t) := c.call op.method op.resource args time t
    (do
      let body ← result
      match op.replyKind? with
      | some kind => return some (← decodeReply kind body)
      | none => return none, t)

/-- One operation after the other, on the same transport. -/
def performAll (c : Client) (t : Transport) :
    List (Operation × Instant) → List (Except CallError (Option Reply)) × Transport
  | [] => ([], t)
  | (op, time) :: rest =>
    let (result, t) := c.perform op time t
    let (results, t) := c.performAll t rest
    (result :: results, t)

end Client
end GatewayAdmin
