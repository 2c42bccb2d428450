import GatewayAdmin.Quota
/-! Users, their subusers, keys and capabilities: records of the gateway's replies, and arguments
of the calls about them. Fields that no reply has travel as arguments only. -/
namespace GatewayAdmin

inductive KeyType where
  | s3
  | swift
deriving DecidableEq

namespace KeyType

def name : KeyType → String
  | s3 => "s3"
  | swift => "swift"

def standard : KeyType := s3

def ofName (s : String) : Validated KeyType :=
  if s = "s3" then .ok s3
  else if s = "swift" then .ok swift
  else .error (.unsupportedKeyType s)

end KeyType

/-- What a subuser may do. Requests and replies spell it differently. -/
inductive AccessLevel where
  | none
  | read
  | write
  | readWrite
  | full
deriving DecidableEq

namespace AccessLevel

def all : List AccessLevel := [none, read, write, readWrite, full]

def input : AccessLevel → String
  | none => ""
  | read => "read"
  | write => "write"
  | readWrite => "readwrite"
  | full => "full"

def reply : AccessLevel → String
  | none => "<none>"
  | read => "read"
  | write => "write"
  | readWrite => "read-write"
  | full => "full-control"

def ofInput? (s : String) : Option AccessLevel := all.find? (·.input = s)

def ofReply? (s : String) : Option AccessLevel := all.find? (·.reply = s)

end AccessLevel

structure Subuser where
  name : Option String := none
  access : Option String := none
  generateSecret : Option Bool := none
  generateAccessKey : Option Bool := none
  accessKey : Option String := none
  secretKey : Option String := none
  secret : Option String := none
  purgeKeys : Option Bool := none
  keyType : Option KeyType := none
deriving DecidableEq

def Subuser.schema : Schema Subuser where
  fields := [
    .optional "id" .text (·.name) fun r v => { r with name := v },
    .optional "permissions" .text (·.access) fun r v => { r with access := v }]
  blank := {}

def Subuser.codec : Codec Subuser := Subuser.schema.codec

structure SwiftKey where
  user : Option String := none
  secretKey : Option String := none
deriving DecidableEq

def SwiftKey.schema : Schema SwiftKey where
  fields := [
    .optional "user" .text (·.user) fun r v => { r with user := v },
    .optional "secret_key" .text (·.secretKey) fun r v => { r with secretKey := v }]
  blank := {}

def SwiftKey.codec : Codec SwiftKey := SwiftKey.schema.codec

structure Capability where
  capType : Option String := none
  perm : Option String := none
deriving DecidableEq

def Capability.schema : Schema Capability where
  fields := [
    .optional "type" .text (·.capType) fun r v => { r with capType := v },
    .optional "perm" .text (·.perm) fun r v => { r with perm := v }]
  blank := {}

def Capability.codec : Codec Capability := Capability.schema.codec

structure UserKey where
  user : Option String := none
  accessKey : Option String := none
  secretKey : Option String := none
  uid : Option String := none
  subuser : Option String := none
  keyType : Option KeyType := none
  generateKey : Option Bool := none
deriving DecidableEq

def UserKey.schema : Schema UserKey where
  fields := [
    .optional "user" .text (·.user) fun r v => { r with user := v },
    .optional "access_key" .text (·.accessKey) fun r v => { r with accessKey := v },
    .optional "secret_key" .text (·.secretKey) fun r v => { r with secretKey := v }]
  blank := {}

def UserKey.codec : Codec UserKey := UserKey.schema.codec

structure UserStats where
  size : Option UInt64 := none
  sizeRounded : Option UInt64 := none
  numObjects : Option UInt64 := none
deriving DecidableEq

def UserStats.schema : Schema UserStats where
  fields := [
    .optional "size" .uint64 (·.size) fun r v => { r with size := v },
    .optional "size_rounded" .uint64 (·.sizeRounded) fun r v => { r with sizeRounded := v },
    .optional "num_objects" .uint64 (·.numObjects) fun r v => { r with numObjects := v }]
  blank := {}

def UserStats.codec : Codec UserStats := UserStats.schema.codec

structure User where
  id : Option String := none
  displayName : Option String := none
  email : Option String := none
  suspended : Option Int32 := none
  maxBuckets : Option Int32 := none
  subusers : Option (List Subuser) := none
  keys : Option (List UserKey) := none
  swiftKeys : Option (List SwiftKey) := none
  caps : Option (List Capability) := none
  opMask : Option String := none
  defaultPlacement : Option String := none
  defaultStorageClass : Option String := none
  placementTags : Option (List Json.Value) := none
  bucketQuota : Option Quota := none
  userQuota : Option Quota := none
  tempUrlKeys : Option (List Json.Value) := none
  userType : Option String := none
  mfaIds : Option (List Json.Value) := none
  stat : Option UserStats := none
  accountId : Option String := none
  accountRoot : Option Bool := none
  keyType : Option KeyType := none
  tenant : Option String := none
  generateKey : Option Bool := none
  purgeData : Option Bool := none
  generateStat : Option Bool := none
  userCaps : Option String := none
deriving DecidableEq

def User.schema : Schema User where
  fields := [
    .optional "user_id" .text (·.id) fun r v => { r with id := v },
    .optional "display_name" .text (·.displayName) fun r v => { r with displayName := v },
    .optional "email" .text (·.email) fun r v => { r with email := v },
    .optional "suspended" .int32 (·.suspended) fun r v => { r with suspended := v },
    .optional "max_buckets" .int32 (·.maxBuckets) fun r v => { r with maxBuckets := v },
    .optional "subusers" (.list Subuser.codec) (·.subusers) fun r v => { r with subusers := v },
    .optional "keys" (.list UserKey.codec) (·.keys) fun r v => { r with keys := v },
    .optional "swift_keys" (.list SwiftKey.codec) (·.swiftKeys)
      fun r v => { r with swiftKeys := v },
    .optional "caps" (.list Capability.codec) (·.caps) fun r v => { r with caps := v },
    .optional "op_mask" .text (·.opMask) fun r v => { r with opMask := v },
    .optional "default_placement" .text (·.defaultPlacement)
      fun r v => { r with defaultPlacement := v },
    .optional "default_storage_class" .text (·.defaultStorageClass)
      fun r v => { r with defaultStorageClass := v },
    .optional "placement_tags" (.list .free) (·.placementTags)
      fun r v => { r with placementTags := v },
    .optional "bucket_quota" Quota.codec (·.bucketQuota) fun r v => { r with bucketQuota := v },
    .optional "user_quota" Quota.codec (·.userQuota) fun r v => { r with userQuota := v },
    .optional "temp_url_keys" (.list .free) (·.tempUrlKeys) fun r v => { r with tempUrlKeys := v },
    .optional "type" .text (·.userType) fun r v => { r with userType := v },
    .optional "mfa_ids" (.list .free) (·.mfaIds) fun r v => { r with mfaIds := v },
    .optional "stats" UserStats.codec (·.stat) fun r v => { r with stat := v },
    .optional "account_id" .text (·.accountId) fun r v => { r with accountId := v },
    .optional "account_root" .flag (·.accountRoot) fun r v => { r with accountRoot := v }]
  blank := {}

def User.codec : Codec User := User.schema.codec

namespace User

def keyList (u : User) : List UserKey := u.keys.getD []

/-- Both halves of every key, in the order of the keys. -/
def addKeyPairs (u : User) (args : Arguments) : Arguments :=
  u.keyList.foldl (fun args key =>
    args |>.add "access-key" key.accessKey |>.add "secret-key" key.secretKey) args

/-- A user is named by its id, by its keys, or by both. -/
def getArguments (u : User) : Validated Arguments := do
  if !isGiven u.id && u.keyList.isEmpty then throw (.missingField "user id or access key")
  u.keyList.forM fun key => discard (require "access key" key.accessKey)
  let args := Arguments.admin.add "uid" u.id
  let args := u.keyList.foldl (fun args key => args.add "access-key" key.accessKey) args
  return args.add "stats" u.generateStat

def createArguments (u : User) : Validated Arguments := do
  let uid ← require "user id" u.id
  let displayName ← require "display name" u.displayName
  let args := Arguments.admin
    |>.add "uid" uid
    |>.add "display-name" displayName
    |>.add "default-placement" u.defaultPlacement
    |>.add "email" u.email
    |>.add "key-type" (u.keyType.map KeyType.name)
  return u.addKeyPairs args
    |>.add "user-caps" u.userCaps
    |>.add "tenant" u.tenant
    |>.add "generate-key" u.generateKey
    |>.add "max-buckets" u.maxBuckets
    |>.add "suspended" u.suspended
    |>.add "op-mask" u.opMask
    |>.add "account-id" u.accountId
    |>.add "account-root" u.accountRoot

def removeArguments (u : User) : Validated Arguments := do
  let uid ← require "user id" u.id
  return Arguments.admin
    |>.add "uid" uid
    |>.add "purge-data" u.purgeData

def modifyArguments (u : User) : Validated Arguments := do
  let uid ← require "user id" u.id
  let args := Arguments.admin
    |>.add "uid" uid
    |>.add "display-name" u.displayName
    |>.add "default-placement" u.defaultPlacement
    |>.add "email" u.email
    |>.add "generate-key" u.generateKey
  return u.addKeyPairs args
    |>.add "key-type" (u.keyType.map KeyType.name)
    |>.add "max-buckets" u.maxBuckets
    |>.add "suspended" u.suspended
    |>.add "op-mask" u.opMask
    |>.add "account-id" u.accountId
    |>.add "account-root" u.accountRoot

end User

namespace Subuser

def checkAccess (s : Subuser) : Validated Unit :=
  let access := s.access.getD ""
  if (AccessLevel.ofInput? access).isSome then .ok ()
  else .error (.invalidSubuserAccess access)

def createArguments (s : Subuser) (uid : String) : Validated Arguments := do
  let uid ← require "user id" uid
  let name ← require "subuser name" s.name
  s.checkAccess
  return Arguments.admin
    |>.add "uid" uid
    |>.add "subuser" name
    |>.add "access" s.access
    |>.add "access-key" s.accessKey
    |>.add "secret-key" s.secretKey
    |>.add "generate-secret" s.generateSecret
    |>.add "gen-access-key" s.generateAccessKey
    |>.add "key-type" (s.keyType.map KeyType.name)

def modifyArguments (s : Subuser) (uid : String) : Validated Arguments := do
  let uid ← require "user id" uid
  let name ← require "subuser name" s.name
  s.checkAccess
  return Arguments.admin
    |>.add "uid" uid
    |>.add "subuser" name
    |>.add "access" s.access
    |>.add "secret" s.secret
    |>.add "generate-secret" s.generateSecret
    |>.add "key-type" (s.keyType.map KeyType.name)

def removeArguments (s : Subuser) (uid : String) : Validated Arguments := do
  let uid ← require "user id" uid
  let name ← require "subuser name" s.name
  return Arguments.admin
    |>.add "uid" uid
    |>.add "subuser" name
    |>.add "purge-keys" s.purgeKeys

end Subuser

namespace UserKey

/-- A Swift key belongs to a subuser, any other key to a user. -/
def checkOwner (k : UserKey) (needsAccessKey : Bool) : Validated Unit := do
  match k.keyType.getD .standard with
  | .swift => discard (require "subuser id" k.subuser)
  | .s3 =>
    discard (require "user id" k.uid)
    if needsAccessKey then discard (require "access key" k.accessKey)

def createArguments (k : UserKey) : Validated Arguments := do
  k.checkOwner false
  return Arguments.admin
    |>.add "uid" k.uid
    |>.add "subuser" k.subuser
    |>.add "access-key" k.accessKey
    |>.add "secret-key" k.secretKey
    |>.add "key-type" (k.keyType.map KeyType.name)
    |>.add "generate-key" k.generateKey

def removeArguments (k : UserKey) : Validated Arguments := do
  k.checkOwner true
  return Arguments.admin
    |>.add "uid" k.uid
    |>.add "subuser" k.subuser
    |>.add "access-key" k.accessKey
    |>.add "key-type" (k.keyType.map KeyType.name)

end UserKey

def userCapsArguments (uid caps : String) : Validated Arguments := do
  let uid ← require "user id" uid
  let caps ← require "user cap" caps
  return Arguments.admin
    |>.add "uid" uid
    |>.add "user-caps" caps

end GatewayAdmin
