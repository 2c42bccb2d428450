import GatewayAdmin.Arguments
import GatewayAdmin.Record
/-! Limits on what a user or a bucket may hold. -/
namespace GatewayAdmin

inductive QuotaTarget where
  | user
  | bucket
deriving DecidableEq

def QuotaTarget.name : QuotaTarget → String
  | user => "user"
  | bucket => "bucket"

structure Quota where
  userId : Option String := none
  bucket : Option String := none
  enabled : Option Bool := none
  checkOnRaw : Option Bool := none
  maxSize : Option Int64 := none
  maxSizeKb : Option Int64 := none
  maxObjects : Option Int64 := none
deriving DecidableEq

namespace Quota

def schema : Schema Quota where
  fields := [
    .optional "user_id" .text (·.userId) fun r v => { r with userId := v },
    .optional "bucket" .text (·.bucket) fun r v => { r with bucket := v },
    .optional "enabled" .flag (·.enabled) fun r v => { r with enabled := v },
    .optional "check_on_raw" .flag (·.checkOnRaw) fun r v => { r with checkOnRaw := v },
    .optional "max_size" .int64 (·.maxSize) fun r v => { r with maxSize := v },
    .optional "max_size_kb" .int64 (·.maxSizeKb) fun r v => { r with maxSizeKb := v },
    .optional "max_objects" .int64 (·.maxObjects) fun r v => { r with maxObjects := v }]
  blank := {}

def codec : Codec Quota := schema.codec

def addLimits (q : Quota) (args : Arguments) : Arguments :=
  args
    |>.add "enabled" q.enabled
    |>.add "max-size" q.maxSize
    |>.add "max-size-kb" q.maxSizeKb
    |>.add "max-objects" q.maxObjects

def getArguments (q : Quota) (type : QuotaTarget) : Validated Arguments := do
  let uid ← require "user id" q.userId
  return Arguments.admin
    |>.add "uid" uid
    |>.add "quota-type" type.name

def setArguments (q : Quota) (type : QuotaTarget) : Validated Arguments := do
  return q.addLimits (← q.getArguments type)

/-- The limits of one bucket, rather than those of every bucket of a user. -/
def individualBucketArguments (q : Quota) : Validated Arguments := do
  let uid ← require "user id" q.userId
  let bucket ← require "bucket name" q.bucket
  return q.addLimits (Arguments.admin |>.add "bucket" bucket |>.add "uid" uid)

end Quota
end GatewayAdmin
