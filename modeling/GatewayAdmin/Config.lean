import GatewayAdmin.Record
import GatewayAdmin.Signature.Signer
/-! The configuration of a client, from an environment or from a JSON text. The secret key can be
read from both and is shown by neither form of output. -/
namespace GatewayAdmin

structure Config where
  endpoint : String := ""
  accessKey : String := ""
  secretKey : String := ""
  region : String := "default"
  service : String := "s3"
  timeoutSecs : UInt64 := 3
  logLevel : String := "info"
deriving DecidableEq

/-- The variables that are set, by name. -/
abbrev Environment := String → Option String

namespace Config

def schema : Schema Config where
  fields := [
    .required "endpoint" .text (·.endpoint) fun c v => { c with endpoint := v },
    .required "accessKey" .text (·.accessKey) fun c v => { c with accessKey := v },
    .unwritten (.required "secretKey" .text (·.secretKey) fun c v => { c with secretKey := v }),
    .required "region" .text (·.region) fun c v => { c with region := v },
    .required "service" .text (·.service) fun c v => { c with service := v },
    .required "timeoutSecs" .uint64 (·.timeoutSecs) fun c v => { c with timeoutSecs := v },
    .required "logLevel" .text (·.logLevel) fun c v => { c with logLevel := v }]
  blank := {}

def codec : Codec Config := schema.codec

def summary (c : Config) : String :=
  describe "AdminConfig" [
    ("endpoint", Text.quoted c.endpoint),
    ("access_key", Text.quoted c.accessKey),
    ("secret_key", Text.quoted redacted),
    ("region", Text.quoted c.region),
    ("service", Text.quoted c.service),
    ("timeout_secs", Text.decimal c.timeoutSecs.toNat),
    ("log_level", Text.quoted c.logLevel)]

/-- A timeout that is no number of seconds counts as not set. -/
def ofEnvironment (env : Environment) : Config :=
  let base : Config := {}
  { endpoint := (env "RGW_ENDPOINT").getD base.endpoint
    accessKey := ((env "RGW_ACCESS_KEY").or (env "AWS_ACCESS_KEY_ID")).getD base.accessKey
    secretKey := ((env "RGW_SECRET_KEY").or (env "AWS_SECRET_ACCESS_KEY")).getD base.secretKey
    region := (env "RGW_REGION").getD base.region
    service := (env "RGW_SERVICE").getD base.service
    timeoutSecs := (((env "RGW_TIMEOUT_SECS").bind
      (Text.unsigned? 18446744073709551615)).map UInt64.ofNat).getD base.timeoutSecs
    logLevel := (env "LOG_LEVEL").getD base.logLevel }

def credentials (c : Config) : Credentials := ⟨c.accessKey, c.secretKey⟩

end Config
end GatewayAdmin
