import GatewayAdmin.Arguments
import GatewayAdmin.Record
/-! The usage log: what users transferred, by bucket and by category of request. -/
namespace GatewayAdmin

structure UsageQuery where
  userId : Option String := none
  start : Option String := none
  stop : Option String := none
  showEntries : Option Bool := none
  showSummary : Option Bool := none
  removeAll : Option Bool := none
deriving DecidableEq

structure UsageCategory where
  category : Option String := none
  bytesSent : Option UInt64 := none
  bytesReceived : Option UInt64 := none
  ops : Option UInt64 := none
  successfulOps : Option UInt64 := none
deriving DecidableEq

def UsageCategory.schema : Schema UsageCategory where
  fields := [
    .optional "category" .text (·.category) fun r v => { r with category := v },
    .optional "bytes_sent" .uint64 (·.bytesSent) fun r v => { r with bytesSent := v },
    .optional "bytes_received" .uint64 (·.bytesReceived) fun r v => { r with bytesReceived := v },
    .optional "ops" .uint64 (·.ops) fun r v => { r with ops := v },
    .optional "successful_ops" .uint64 (·.successfulOps) fun r v => { r with successfulOps := v }]
  blank := {}

def UsageCategory.codec : Codec UsageCategory := UsageCategory.schema.codec

structure UsageTotal where
  bytesSent : Option UInt64 := none
  bytesReceived : Option UInt64 := none
  ops : Option UInt64 := none
  successfulOps : Option UInt64 := none
deriving DecidableEq

def UsageTotal.schema : Schema UsageTotal where
  fields := [
    .optional "bytes_sent" .uint64 (·.bytesSent) fun r v => { r with bytesSent := v },
    .optional "bytes_received" .uint64 (·.bytesReceived) fun r v => { r with bytesReceived := v },
    .optional "ops" .uint64 (·.ops) fun r v => { r with ops := v },
    .optional "successful_ops" .uint64 (·.successfulOps) fun r v => { r with successfulOps := v }]
  blank := {}

def UsageTotal.codec : Codec UsageTotal := UsageTotal.schema.codec

structure UsageBucket where
  bucket : Option String := none
  time : Option String := none
  epoch : Option UInt64 := none
  owner : Option String := none
  categories : Option (List UsageCategory) := none
deriving DecidableEq

def UsageBucket.schema : Schema UsageBucket where
  fields := [
    .optional "bucket" .text (·.bucket) fun r v => { r with bucket := v },
    .optional "time" .text (·.time) fun r v => { r with time := v },
    .optional "epoch" .uint64 (·.epoch) fun r v => { r with epoch := v },
    .optional "owner" .text (·.owner) fun r v => { r with owner := v },
    .optional "categories" (.list UsageCategory.codec) (·.categories)
      fun r v => { r with categories := v }]
  blank := {}

def UsageBucket.codec : Codec UsageBucket := UsageBucket.schema.codec

structure UsageEntry where
  user : Option String := none
  buckets : Option (List UsageBucket) := none
deriving DecidableEq

def UsageEntry.schema : Schema UsageEntry where
  fields := [
    .optional "user" .text (·.user) fun r v => { r with user := v },
    .optional "buckets" (.list UsageBucket.codec) (·.buckets) fun r v => { r with buckets := v }]
  blank := {}

def UsageEntry.codec : Codec UsageEntry := UsageEntry.schema.codec

structure UsageSummary where
  user : Option String := none
  categories : Option (List UsageCategory) := none
  total : Option UsageTotal := none
deriving DecidableEq

def UsageSummary.schema : Schema UsageSummary where
  fields := [
    .optional "user" .text (·.user) fun r v => { r with user := v },
    .optional "categories" (.list UsageCategory.codec) (·.categories)
      fun r v => { r with categories := v },
    .optional "total" UsageTotal.codec (·.total) fun r v => { r with total := v }]
  blank := {}

def UsageSummary.codec : Codec UsageSummary := UsageSummary.schema.codec

structure Usage where
  entries : Option (List UsageEntry) := none
  summary : Option (List UsageSummary) := none
deriving DecidableEq

def Usage.schema : Schema Usage where
  fields := [
    .optional "entries" (.list UsageEntry.codec) (·.entries) fun r v => { r with entries := v },
    .optional "summary" (.list UsageSummary.codec) (·.summary) fun r v => { r with summary := v }]
  blank := {}

def Usage.codec : Codec Usage := Usage.schema.codec

namespace UsageQuery

def rangeArguments (r : UsageQuery) : Arguments :=
  Arguments.admin
    |>.add "uid" r.userId
    |>.add "start" r.start
    |>.add "end" r.stop

def getArguments (r : UsageQuery) : Arguments :=
  r.rangeArguments
    |>.add "show-entries" r.showEntries
    |>.add "show-summary" r.showSummary

def trimArguments (r : UsageQuery) : Arguments := r.rangeArguments.add "remove-all" r.removeAll

end UsageQuery
end GatewayAdmin
