import GatewayAdmin.Quota
import GatewayAdmin.Timestamp
/-! Buckets, who may use them, their links to users and their indexes. -/
namespace GatewayAdmin

/-- Times are written as RFC 3339 has them. -/
def Codec.instant : Codec Instant where
  write t := .string t.rfc3339
  read _ d := do
    match Timestamp.read? (← d.readString) with
    | some t => .ok t
    | none => .error .mismatch

structure ExplicitPlacement where
  dataPool : Option String := none
  dataExtraPool : Option String := none
  indexPool : Option String := none
deriving DecidableEq

def ExplicitPlacement.schema : Schema ExplicitPlacement where
  fields := [
    .optional "data_pool" .text (·.dataPool) fun r v => { r with dataPool := v },
    .optional "data_extra_pool" .text (·.dataExtraPool) fun r v => { r with dataExtraPool := v },
    .optional "index_pool" .text (·.indexPool) fun r v => { r with indexPool := v }]
  blank := {}

def ExplicitPlacement.codec : Codec ExplicitPlacement := ExplicitPlacement.schema.codec

structure StorageUse where
  size : Option UInt64 := none
  sizeActual : Option UInt64 := none
  sizeUtilized : Option UInt64 := none
  sizeKb : Option UInt64 := none
  sizeKbActual : Option UInt64 := none
  sizeKbUtilized : Option UInt64 := none
  numObjects : Option UInt64 := none
deriving DecidableEq

def StorageUse.schema : Schema StorageUse where
  fields := [
    .optional "size" .uint64 (·.size) fun r v => { r with size := v },
    .optional "size_actual" .uint64 (·.sizeActual) fun r v => { r with sizeActual := v },
    .optional "size_utilized" .uint64 (·.sizeUtilized) fun r v => { r with sizeUtilized := v },
    .optional "size_kb" .uint64 (·.sizeKb) fun r v => { r with sizeKb := v },
    .optional "size_kb_actual" .uint64 (·.sizeKbActual) fun r v => { r with sizeKbActual := v },
    .optional "size_kb_utilized" .uint64 (·.sizeKbUtilized)
      fun r v => { r with sizeKbUtilized := v },
    .optional "num_objects" .uint64 (·.numObjects) fun r v => { r with numObjects := v }]
  blank := {}

def StorageUse.codec : Codec StorageUse := StorageUse.schema.codec

structure BucketUsage where
  main : Option StorageUse := none
  multimeta : Option StorageUse := none
deriving DecidableEq

def BucketUsage.schema : Schema BucketUsage where
  fields := [
    .optional "rgw.main" StorageUse.codec (·.main) fun r v => { r with main := v },
    .optional "rgw.multimeta" StorageUse.codec (·.multimeta) fun r v => { r with multimeta := v }]
  blank := {}

def BucketUsage.codec : Codec BucketUsage := BucketUsage.schema.codec

structure Bucket where
  name : Option String := none
  numShards : Option UInt64 := none
  tenant : Option String := none
  zonegroup : Option String := none
  placementRule : Option String := none
  explicitPlacement : Option ExplicitPlacement := none
  id : Option String := none
  marker : Option String := none
  indexType : Option String := none
  versioned : Option Bool := none
  versioningEnabled : Option Bool := none
  versioning : Option String := none
  objectLockEnabled : Option Bool := none
  owner : Option String := none
  ver : Option String := none
  masterVer : Option String := none
  mtime : Option String := none
  creationTime : Option Instant := none
  maxMarker : Option String := none
  usage : Option BucketUsage := none
  bucketQuota : Option Quota := none
  userId : Option String := none
  generateStat : Option Bool := none
  purgeObjects : Option Bool := none
deriving DecidableEq

def Bucket.schema : Schema Bucket where
  fields := [
    .optional "bucket" .text (·.name) fun r v => { r with name := v },
    .optional "num_shards" .uint64 (·.numShards) fun r v => { r with numShards := v },
    .optional "tenant" .text (·.tenant) fun r v => { r with tenant := v },
    .optional "zonegroup" .text (·.zonegroup) fun r v => { r with zonegroup := v },
    .optional "placement_rule" .text (·.placementRule) fun r v => { r with placementRule := v },
    .optional "explicit_placement" ExplicitPlacement.codec (·.explicitPlacement)
      fun r v => { r with explicitPlacement := v },
    .optional "id" .text (·.id) fun r v => { r with id := v },
    .optional "marker" .text (·.marker) fun r v => { r with marker := v },
    .optional "index_type" .text (·.indexType) fun r v => { r with indexType := v },
    .optional "versioned" .flag (·.versioned) fun r v => { r with versioned := v },
    .optional "versioning_enabled" .flag (·.versioningEnabled)
      fun r v => { r with versioningEnabled := v },
    .optional "versioning" .text (·.versioning) fun r v => { r with versioning := v },
    .optional "object_lock_enabled" .flag (·.objectLockEnabled)
      fun r v => { r with objectLockEnabled := v },
    .optional "owner" .text (·.owner) fun r v => { r with owner := v },
    .optional "ver" .text (·.ver) fun r v => { r with ver := v },
    .optional "master_ver" .text (·.masterVer) fun r v => { r with masterVer := v },
    .optional "mtime" .text (·.mtime) fun r v => { r with mtime := v },
    .optional "creation_time" .instant (·.creationTime) fun r v => { r with creationTime := v },
    .optional "max_marker" .text (·.maxMarker) fun r v => { r with maxMarker := v },
    .optional "usage" BucketUsage.codec (·.usage) fun r v => { r with usage := v },
    .optional "bucket_quota" Quota.codec (·.bucketQuota) fun r v => { r with bucketQuota := v }]
  blank := {}

def Bucket.codec : Codec Bucket := Bucket.schema.codec

structure AclUser where
  user : Option String := none
  acl : Option Int32 := none
deriving DecidableEq

def AclUser.schema : Schema AclUser where
  fields := [
    .optional "user" .text (·.user) fun r v => { r with user := v },
    .optional "acl" .int32 (·.acl) fun r v => { r with acl := v }]
  blank := {}

def AclUser.codec : Codec AclUser := AclUser.schema.codec

structure GrantType where
  value : Option Int32 := none
deriving DecidableEq

def GrantType.schema : Schema GrantType where
  fields := [
    .optional "type" .int32 (·.value) fun r v => { r with value := v }]
  blank := {}

def GrantType.codec : Codec GrantType := GrantType.schema.codec

structure GrantPermission where
  flags : Option Int32 := none
deriving DecidableEq

def GrantPermission.schema : Schema GrantPermission where
  fields := [
    .optional "flags" .int32 (·.flags) fun r v => { r with flags := v }]
  blank := {}

def GrantPermission.codec : Codec GrantPermission := GrantPermission.schema.codec

structure Grant where
  grantType : Option GrantType := none
  id : Option String := none
  email : Option String := none
  permission : Option GrantPermission := none
  name : Option String := none
  group : Option Int32 := none
  urlSpec : Option String := none
deriving DecidableEq

def Grant.schema : Schema Grant where
  fields := [
    .optional "type" GrantType.codec (·.grantType) fun r v => { r with grantType := v },
    .optional "id" .text (·.id) fun r v => { r with id := v },
    .optional "email" .text (·.email) fun r v => { r with email := v },
    .optional "permission" GrantPermission.codec (·.permission)
      fun r v => { r with permission := v },
    .optional "name" .text (·.name) fun r v => { r with name := v },
    .optional "group" .int32 (·.group) fun r v => { r with group := v },
    .optional "url_spec" .text (·.urlSpec) fun r v => { r with urlSpec := v }]
  blank := {}

def Grant.codec : Codec Grant := Grant.schema.codec

structure GrantEntry where
  id : Option String := none
  grant : Option Grant := none
deriving DecidableEq

def GrantEntry.schema : Schema GrantEntry where
  fields := [
    .optional "id" .text (·.id) fun r v => { r with id := v },
    .optional "grant" Grant.codec (·.grant) fun r v => { r with grant := v }]
  blank := {}

def GrantEntry.codec : Codec GrantEntry := GrantEntry.schema.codec

structure AccessList where
  userMap : Option (List AclUser) := none
  groupMap : Option (List Json.Value) := none
  grantMap : Option (List GrantEntry) := none
deriving DecidableEq

def AccessList.schema : Schema AccessList where
  fields := [
    .optional "acl_user_map" (.list AclUser.codec) (·.userMap) fun r v => { r with userMap := v },
    .optional "acl_group_map" (.list .free) (·.groupMap) fun r v => { r with groupMap := v },
    .optional "grant_map" (.list GrantEntry.codec) (·.grantMap) fun r v => { r with grantMap := v }]
  blank := {}

def AccessList.codec : Codec AccessList := AccessList.schema.codec

structure PolicyOwner where
  id : Option String := none
  displayName : Option String := none
deriving DecidableEq

def PolicyOwner.schema : Schema PolicyOwner where
  fields := [
    .optional "id" .text (·.id) fun r v => { r with id := v },
    .optional "display_name" .text (·.displayName) fun r v => { r with displayName := v }]
  blank := {}

def PolicyOwner.codec : Codec PolicyOwner := PolicyOwner.schema.codec

structure Policy where
  acl : Option AccessList := none
  owner : Option PolicyOwner := none
deriving DecidableEq

def Policy.schema : Schema Policy where
  fields := [
    .optional "acl" AccessList.codec (·.acl) fun r v => { r with acl := v },
    .optional "owner" PolicyOwner.codec (·.owner) fun r v => { r with owner := v }]
  blank := {}

def Policy.codec : Codec Policy := Policy.schema.codec

structure BucketLink where
  bucket : Option String := none
  bucketId : Option String := none
  userId : Option String := none
  newBucketName : Option String := none
deriving DecidableEq

def BucketLink.schema : Schema BucketLink where
  fields := [
    .optional "bucket" .text (·.bucket) fun r v => { r with bucket := v },
    .optional "bucket_id" .text (·.bucketId) fun r v => { r with bucketId := v },
    .optional "uid" .text (·.userId) fun r v => { r with userId := v },
    .optional "new_bucket_name" .text (·.newBucketName) fun r v => { r with newBucketName := v }]
  blank := {}

def BucketLink.codec : Codec BucketLink := BucketLink.schema.codec

structure IndexCheck where
  bucket : Option String := none
  checkObjects : Option Bool := none
  fix : Option Bool := none
deriving DecidableEq

structure IndexHeader where
  usage : Option BucketUsage := none
deriving DecidableEq

def IndexHeader.schema : Schema IndexHeader where
  fields := [
    .optional "usage" BucketUsage.codec (·.usage) fun r v => { r with usage := v }]
  blank := {}

def IndexHeader.codec : Codec IndexHeader := IndexHeader.schema.codec

structure IndexComparison where
  existing : Option IndexHeader := none
  calculated : Option IndexHeader := none
deriving DecidableEq

def IndexComparison.schema : Schema IndexComparison where
  fields := [
    .optional "existing_header" IndexHeader.codec (·.existing) fun r v => { r with existing := v },
    .optional "calculated_header" IndexHeader.codec (·.calculated)
      fun r v => { r with calculated := v }]
  blank := {}

def IndexComparison.codec : Codec IndexComparison := IndexComparison.schema.codec

structure IndexReport where
  invalidEntries : Option (List String) := none
  checkResult : Option IndexComparison := none
deriving DecidableEq

def IndexReport.schema : Schema IndexReport where
  fields := [
    .optional "invalid_multipart_entries" (.list .text) (·.invalidEntries)
      fun r v => { r with invalidEntries := v },
    .optional "check_result" IndexComparison.codec (·.checkResult)
      fun r v => { r with checkResult := v }]
  blank := {}

def IndexReport.codec : Codec IndexReport := IndexReport.schema.codec

namespace Bucket

def requireName (b : Bucket) : Validated String := require "bucket name" b.name

def infoArguments (b : Bucket) : Validated Arguments := do
  let name ← b.requireName
  return Arguments.admin
    |>.add "bucket" name
    |>.add "uid" b.userId
    |>.add "stats" b.generateStat

def policyArguments (b : Bucket) : Validated Arguments := do
  let name ← b.requireName
  return Arguments.admin.add "bucket" name

def removeArguments (b : Bucket) : Validated Arguments := do
  let name ← b.requireName
  return Arguments.admin
    |>.add "bucket" name
    |>.add "purge-objects" b.purgeObjects

/-- Of all users, or of one. -/
def listArguments (uid : Option String) (stats : Option Bool) : Arguments :=
  Arguments.admin
    |>.add "uid" uid
    |>.add "stats" stats

def userListArguments (uid : String) (stats : Bool) : Validated Arguments := do
  return listArguments (← require "user id" uid) stats

end Bucket

namespace BucketLink

def required (l : BucketLink) : Validated (String × String) := do
  let uid ← require "user id" l.userId
  let bucket ← require "bucket name" l.bucket
  return (uid, bucket)

def linkArguments (l : BucketLink) : Validated Arguments := do
  let (uid, bucket) ← l.required
  return Arguments.admin
    |>.add "uid" uid
    |>.add "bucket-id" l.bucketId
    |>.add "bucket" bucket
    |>.add "new-bucket-name" l.newBucketName

def unlinkArguments (l : BucketLink) : Validated Arguments := do
  let (uid, bucket) ← l.required
  return Arguments.admin
    |>.add "uid" uid
    |>.add "bucket" bucket

end BucketLink

def IndexCheck.arguments (c : IndexCheck) : Validated Arguments := do
  let bucket ← require "bucket name" c.bucket
  return Arguments.admin
    |>.add "bucket" bucket
    |>.add "check-objects" c.checkObjects
    |>.add "fix" c.fix

end GatewayAdmin
