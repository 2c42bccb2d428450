import GatewayAdmin.CommandLine.Command
import Std.Time.DateTime.Timestamp
/-! The program. It opens no connection itself: the request is shown on standard error, and the
reply is read from standard input, the status on the first line and the body after it. -/
namespace GatewayAdmin.Program

/-- The variables of the configuration that are set. -/
def readEnvironment : IO Environment := do
  let names := ["RGW_ENDPOINT", "RGW_ACCESS_KEY", "AWS_ACCESS_KEY_ID", "RGW_SECRET_KEY",
    "AWS_SECRET_ACCESS_KEY", "RGW_REGION", "RGW_SERVICE", "RGW_TIMEOUT_SECS", "LOG_LEVEL"]
  let pairs ← names.mapM fun name => do return (name, ← IO.getEnv name)
  return fun name => (pairs.lookup name).join

def now : IO Instant := do
  let t ← Std.Time.Timestamp.now
  return (Instant.ofUnix? t.toSecondsSinceUnixEpoch.val 0).getD .epoch

def showRequest (r : Request) : IO Unit := do
  IO.eprintln (r.method.name ++ " " ++ r.uri.toText)
  for field in r.headers.sorted do
    IO.eprintln (field.1 ++ ": " ++ Text.ofUtf8Lossy field.2)

def readResponse : IO Response := do
  let input ← IO.getStdin
  let line ← input.getLine
  let body ← input.readBinToEnd
  return ⟨(line.trimAscii.toString.toNat?).getD 200, body.toList⟩

/-- Requests do not depend on responses, so the request is known before the reply is read. -/
def exchange (client : Client) (command : CommandLine.Command) (time : Instant) :
    IO CommandLine.RunResult := do
  let sent := (CommandLine.run client command time (Transport.ofQueue [])).transport.sent
  for request in sent do
    showRequest request
  let queue ← if sent.isEmpty then pure [] else List.singleton <$> readResponse
  return CommandLine.run client command time (Transport.ofQueue queue)

/-- The kind of the fault, where a body could not be read. -/
def decoderText : CallError → String
  | .decode _ _ fault => fault.name
  | _ => ""

def fail (message : String) : IO UInt32 := do
  IO.eprintln ("Error: " ++ message)
  return 1

end GatewayAdmin.Program

open GatewayAdmin Program in
def main (words : List String) : IO UInt32 := do
  match CommandLine.Invocation.ofWords words with
  | .error e =>
    IO.eprintln e.message
    return if e = .displayHelp || e = .displayVersion then 0 else 2
  | .ok invocation =>
    let config := invocation.overrides.apply (Config.ofEnvironment (← readEnvironment))
    match Client.ofConfig config with
    | .error e => fail e.message
    | .ok client =>
      let result ← exchange client invocation.command (← now)
      match result.error with
      | some e => fail (e.message (decoderText e))
      | none =>
        IO.print result.output
        return 0
