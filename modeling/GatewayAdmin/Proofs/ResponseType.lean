import GatewayAdmin.Account
import GatewayAdmin.Bucket
import GatewayAdmin.Info
import GatewayAdmin.Usage
import GatewayAdmin.User
import GatewayAdmin.Proofs.TimestampText

/-! The types that replies are read as. Some of their records are those of requests as well, with
fields that no reply fills, and some keep free values. -/
namespace GatewayAdmin

open Json

/-- The fields that only requests have are at their defaults. -/
def Subuser.IsReply (s : Subuser) : Prop := s = { name := s.name, access := s.access }

def UserKey.IsReply (k : UserKey) : Prop :=
  k = { user := k.user, accessKey := k.accessKey, secretKey := k.secretKey }

/-- Those of its parts are at their defaults too. -/
def User.IsReply (u : User) : Prop :=
  u = { u with keyType := none, tenant := none, generateKey := none, purgeData := none,
               generateStat := none, userCaps := none } ∧
    (∀ s ∈ u.subusers.getD [], s.IsReply) ∧ ∀ k ∈ u.keys.getD [], k.IsReply

def Bucket.IsReply (b : Bucket) : Prop :=
  b = { b with userId := none, generateStat := none, purgeObjects := none }

/-- The bucket with its time as it is written. -/
def Bucket.shown (b : Bucket) : Bucket :=
  { b with creationTime := b.creationTime.map Instant.shown }

/-- The values that are kept as they are, whatever they are. -/
def User.freeValues (u : User) : List Value :=
  u.placementTags.getD [] ++ u.tempUrlKeys.getD [] ++ u.mfaIds.getD []

def AccessList.freeValues (l : AccessList) : List Value := l.groupMap.getD []

def Policy.freeValues (p : Policy) : List Value := p.acl.elim [] AccessList.freeValues

theorem forall_mem_getD_iff {α : Type} {P : α → Prop} {xs? : Option (List α)} :
    (∀ x ∈ xs?.getD [], P x) ↔ ∀ xs ∈ xs?, ∀ x ∈ xs, P x := by
  cases xs? with
  | none => simp
  | some xs => simp

/-- A record of replies, or a part of one. -/
structure RecordType where
  Carrier : Type
  schema : Schema Carrier

def RecordType.all : List RecordType := [
  ⟨User, User.schema⟩, ⟨Subuser, Subuser.schema⟩, ⟨SwiftKey, SwiftKey.schema⟩,
  ⟨UserKey, UserKey.schema⟩, ⟨Capability, Capability.schema⟩, ⟨UserStats, UserStats.schema⟩,
  ⟨Quota, Quota.schema⟩, ⟨Account, Account.schema⟩,
  ⟨Bucket, Bucket.schema⟩, ⟨ExplicitPlacement, ExplicitPlacement.schema⟩,
  ⟨StorageUse, StorageUse.schema⟩, ⟨BucketUsage, BucketUsage.schema⟩,
  ⟨Policy, Policy.schema⟩, ⟨AccessList, AccessList.schema⟩, ⟨AclUser, AclUser.schema⟩,
  ⟨GrantEntry, GrantEntry.schema⟩, ⟨Grant, Grant.schema⟩, ⟨GrantType, GrantType.schema⟩,
  ⟨GrantPermission, GrantPermission.schema⟩, ⟨PolicyOwner, PolicyOwner.schema⟩,
  ⟨IndexReport, IndexReport.schema⟩, ⟨IndexComparison, IndexComparison.schema⟩,
  ⟨IndexHeader, IndexHeader.schema⟩,
  ⟨Usage, Usage.schema⟩, ⟨UsageEntry, UsageEntry.schema⟩, ⟨UsageBucket, UsageBucket.schema⟩,
  ⟨UsageCategory, UsageCategory.schema⟩, ⟨UsageSummary, UsageSummary.schema⟩,
  ⟨UsageTotal, UsageTotal.schema⟩,
  ⟨Info, Info.schema⟩, ⟨ClusterInfo, ClusterInfo.schema⟩, ⟨StorageBackend, StorageBackend.schema⟩]

/-- A type of replies, or of their parts. -/
structure ResponseType where
  Carrier : Type
  codec : Codec Carrier
  /-- The fields that only requests have are at their defaults, at every level. -/
  IsReply : Carrier → Prop
  /-- The value with every time as it is written. -/
  shown : Carrier → Carrier
  freeValues : Carrier → List Value

namespace ResponseType

/-- A type without fields that only requests have, without times and without free values. -/
def ofCodec {α : Type} (c : Codec α) : ResponseType := ⟨α, c, fun _ => True, id, fun _ => []⟩

def list (T : ResponseType) : ResponseType where
  Carrier := List T.Carrier
  codec := .list T.codec
  IsReply xs := ∀ x ∈ xs, T.IsReply x
  shown xs := xs.map T.shown
  freeValues xs := xs.flatMap T.freeValues

def user : ResponseType := ⟨User, User.codec, User.IsReply, id, User.freeValues⟩

def subuser : ResponseType := ⟨Subuser, Subuser.codec, Subuser.IsReply, id, fun _ => []⟩

def userKey : ResponseType := ⟨UserKey, UserKey.codec, UserKey.IsReply, id, fun _ => []⟩

def bucket : ResponseType := ⟨Bucket, Bucket.codec, Bucket.IsReply, Bucket.shown, fun _ => []⟩

def accessList : ResponseType :=
  ⟨AccessList, AccessList.codec, fun _ => True, id, AccessList.freeValues⟩

def policy : ResponseType := ⟨Policy, Policy.codec, fun _ => True, id, Policy.freeValues⟩

/-- The records, then the lists. -/
def all : List ResponseType := [
  user, subuser, ofCodec SwiftKey.codec, userKey, ofCodec Capability.codec,
  ofCodec UserStats.codec, ofCodec Quota.codec, ofCodec Account.codec,
  bucket, ofCodec ExplicitPlacement.codec, ofCodec StorageUse.codec, ofCodec BucketUsage.codec,
  policy, accessList, ofCodec AclUser.codec, ofCodec GrantEntry.codec, ofCodec Grant.codec,
  ofCodec GrantType.codec, ofCodec GrantPermission.codec, ofCodec PolicyOwner.codec,
  ofCodec IndexReport.codec, ofCodec IndexComparison.codec, ofCodec IndexHeader.codec,
  ofCodec Usage.codec, ofCodec UsageEntry.codec, ofCodec UsageBucket.codec,
  ofCodec UsageCategory.codec, ofCodec UsageSummary.codec, ofCodec UsageTotal.codec,
  ofCodec Info.codec, ofCodec ClusterInfo.codec, ofCodec StorageBackend.codec,
  (ofCodec Codec.text).list, bucket.list, userKey.list, (ofCodec Capability.codec).list]

end ResponseType
end GatewayAdmin
