import GatewayAdmin.Operation

/-! The table of the admin operations, as data: the method and the path of each, its parameters in
their order and what it requires. What a row asks of a caller's input, and what it sends of it, is
read off the row by the names of the parameters. -/
namespace GatewayAdmin

/-- A value that a caller may give for a parameter, or leave out. -/
inductive ArgumentValue where
  | text (value : Option String)
  | flag (value : Option Bool)
  | number (value : Option Int)

/-- How the value is written. An empty text is left out like an absent value. -/
def ArgumentValue.written? : ArgumentValue → Option String
  | text value => value.filter (· ≠ "")
  | flag value => value.map toString
  | number value => value.map toString

/-- Values by the names of their parameters. -/
abbrev ArgumentValues := List (String × ArgumentValue)

def ArgumentValues.written? (values : ArgumentValues) (name : String) : Option String :=
  (values.lookup name).bind ArgumentValue.written?

@[simp] theorem ArgumentValues.written?_cons (name other : String) (value : ArgumentValue)
    (values : ArgumentValues) :
    written? ((name, value) :: values) other =
      if other = name then value.written? else values.written? other := by
  by_cases h : other = name
  · simp [written?, h]
  · have hne : (other == name) = false := by simpa using h
    simp [written?, List.lookup_cons, h, hne]

/-- What a caller gives to an operation: its values, and those of each key that comes with it. -/
structure CallInput where
  values : ArgumentValues
  keys : List ArgumentValues := []

inductive Parameter where
  /-- The value that was given under the name. -/
  | given (name : String)
  | constant (name value : String)
  /-- The values of each key under these names, key by key. -/
  | ofEachKey (names : List String)

namespace Parameter

@[simp] def sent (input : CallInput) : Parameter → List (String × String)
  | given name => ((input.values.written? name).map (name, ·)).toList
  | constant name value => [(name, value)]
  | ofEachKey names =>
    input.keys.flatMap fun key => names.filterMap fun name => (key.written? name).map (name, ·)

end Parameter

inductive Requirement where
  /-- The parameter has a value. Messages speak of it by its label. -/
  | given (name label : String)
  | userOrKey
  | givenInEachKey (name label : String)
  | validAccess
  /-- The parameter has a value if the key is of this type. -/
  | givenForKeyType (keyType name label : String)

namespace Requirement

def userId : Requirement := given "uid" "user id"

def subuserName : Requirement := given "subuser" "subuser name"

def bucketName : Requirement := given "bucket" "bucket name"

def accountId : Requirement := given "id" "account id"

/-- Keys are for the S3 protocol unless their type says otherwise. -/
def keyType (input : CallInput) : String := (input.values.written? "key-type").getD "s3"

def access (input : CallInput) : String := (input.values.written? "access").getD ""

def isMet (input : CallInput) : Requirement → Bool
  | given name _ => (input.values.written? name).isSome
  | userOrKey => (input.values.written? "uid").isSome || !input.keys.isEmpty
  | givenInEachKey name _ => input.keys.all fun key => (key.written? name).isSome
  | validAccess => ["", "read", "write", "readwrite", "full"].contains (access input)
  | givenForKeyType type name _ =>
    keyType input != type || (input.values.written? name).isSome

/-- What is reported of the requirement when it is not met. -/
def error (input : CallInput) : Requirement → ArgumentError
  | given _ label | givenInEachKey _ label | givenForKeyType _ _ label => .missingField label
  | userOrKey => .missingField "user id or access key"
  | validAccess => .invalidSubuserAccess (access input)

end Requirement

structure Row where
  method : Method
  path : String
  parameters : List Parameter
  requirements : List Requirement

namespace Row

/-- The first requirement that the input does not meet. -/
def firstUnmet? (row : Row) (input : CallInput) : Option Requirement :=
  row.requirements.find? fun r => !r.isMet input

@[simp] def sent (row : Row) (input : CallInput) : List (String × String) :=
  row.parameters.flatMap (·.sent input)

end Row

/-! ### What the fields of the inputs are called as parameters -/

@[simp] def UserKey.values (k : UserKey) : ArgumentValues := [
  ("uid", .text k.uid),
  ("subuser", .text k.subuser),
  ("access-key", .text k.accessKey),
  ("secret-key", .text k.secretKey),
  ("key-type", .text (k.keyType.map KeyType.name)),
  ("generate-key", .flag k.generateKey)]

@[simp] def User.values (u : User) : ArgumentValues := [
  ("uid", .text u.id),
  ("display-name", .text u.displayName),
  ("email", .text u.email),
  ("suspended", .number (u.suspended.map Int32.toInt)),
  ("max-buckets", .number (u.maxBuckets.map Int32.toInt)),
  ("op-mask", .text u.opMask),
  ("default-placement", .text u.defaultPlacement),
  ("account-id", .text u.accountId),
  ("account-root", .flag u.accountRoot),
  ("key-type", .text (u.keyType.map KeyType.name)),
  ("tenant", .text u.tenant),
  ("generate-key", .flag u.generateKey),
  ("purge-data", .flag u.purgeData),
  ("stats", .flag u.generateStat),
  ("user-caps", .text u.userCaps)]

@[simp] def User.input (u : User) : CallInput := ⟨u.values, (u.keys.getD []).map UserKey.values⟩

@[simp] def Subuser.values (s : Subuser) : ArgumentValues := [
  ("subuser", .text s.name),
  ("access", .text s.access),
  ("generate-secret", .flag s.generateSecret),
  ("gen-access-key", .flag s.generateAccessKey),
  ("access-key", .text s.accessKey),
  ("secret-key", .text s.secretKey),
  ("secret", .text s.secret),
  ("purge-keys", .flag s.purgeKeys),
  ("key-type", .text (s.keyType.map KeyType.name))]

@[simp] def Bucket.values (b : Bucket) : ArgumentValues := [
  ("bucket", .text b.name),
  ("uid", .text b.userId),
  ("stats", .flag b.generateStat),
  ("purge-objects", .flag b.purgeObjects)]

@[simp] def BucketLink.values (l : BucketLink) : ArgumentValues := [
  ("bucket", .text l.bucket),
  ("bucket-id", .text l.bucketId),
  ("uid", .text l.userId),
  ("new-bucket-name", .text l.newBucketName)]

@[simp] def IndexCheck.values (c : IndexCheck) : ArgumentValues := [
  ("bucket", .text c.bucket),
  ("check-objects", .flag c.checkObjects),
  ("fix", .flag c.fix)]

@[simp] def Quota.values (q : Quota) : ArgumentValues := [
  ("uid", .text q.userId),
  ("bucket", .text q.bucket),
  ("enabled", .flag q.enabled),
  ("max-size", .number (q.maxSize.map Int64.toInt)),
  ("max-size-kb", .number (q.maxSizeKb.map Int64.toInt)),
  ("max-objects", .number (q.maxObjects.map Int64.toInt))]

@[simp] def UsageQuery.values (r : UsageQuery) : ArgumentValues := [
  ("uid", .text r.userId),
  ("start", .text r.start),
  ("end", .text r.stop),
  ("show-entries", .flag r.showEntries),
  ("show-summary", .flag r.showSummary),
  ("remove-all", .flag r.removeAll)]

@[simp] def Account.values (a : Account) : ArgumentValues := [
  ("id", .text a.id),
  ("name", .text a.name),
  ("email", .text a.email),
  ("tenant", .text a.tenant),
  ("max-users", .number (a.maxUsers.map Int64.toInt)),
  ("max-roles", .number (a.maxRoles.map Int64.toInt)),
  ("max-groups", .number (a.maxGroups.map Int64.toInt)),
  ("max-access-keys", .number (a.maxAccessKeys.map Int64.toInt)),
  ("max-buckets", .number (a.maxBuckets.map Int64.toInt))]

namespace Operation

@[simp] def input : Operation → CallInput
  | getUser user | createUser user | removeUser user | modifyUser user => user.input
  | createSubuser uid subuser | modifySubuser uid subuser | removeSubuser uid subuser =>
    ⟨("uid", .text uid) :: subuser.values, []⟩
  | createKey key | removeKey key => ⟨key.values, []⟩
  | addCaps uid caps | removeCaps uid caps =>
    ⟨[("uid", .text uid), ("user-caps", .text caps)], []⟩
  | listUserBuckets uid | listUserBucketRecords uid => ⟨[("uid", .text uid)], []⟩
  | getBucket bucket | getBucketPolicy bucket | removeBucket bucket => ⟨bucket.values, []⟩
  | linkBucket link | unlinkBucket link => ⟨link.values, []⟩
  | checkBucketIndex check => ⟨check.values, []⟩
  | getQuota _ quota | setQuota _ quota | setIndividualBucketQuota quota => ⟨quota.values, []⟩
  | getUsage request | trimUsage request => ⟨request.values, []⟩
  | createAccount account | modifyAccount account => ⟨account.values, []⟩
  | getAccount id | removeAccount id => ⟨[("id", .text id)], []⟩
  | listUsers | listBuckets | listBucketRecords | getInfo => ⟨[], []⟩

/-! ### The table -/

open Requirement

@[simp] def row : Operation → Row
  | getUser _ => {
      method := .get, path := "/user"
      parameters := [.given "uid", .ofEachKey ["access-key"], .given "stats"]
      requirements := [.userOrKey, .givenInEachKey "access-key" "access key"] }
  | listUsers => {
      method := .get, path := "/metadata/user"
      parameters := []
      requirements := [] }
  | createUser _ => {
      method := .put, path := "/user"
      parameters := [.given "uid", .given "display-name", .given "default-placement",
        .given "email", .given "key-type", .ofEachKey ["access-key", "secret-key"],
        .given "user-caps", .given "tenant", .given "generate-key", .given "max-buckets",
        .given "suspended", .given "op-mask", .given "account-id", .given "account-root"]
      requirements := [userId, .given "display-name" "display name"] }
  | removeUser _ => {
      method := .delete, path := "/user"
      parameters := [.given "uid", .given "purge-data"]
      requirements := [userId] }
  | modifyUser _ => {
      method := .post, path := "/user"
      parameters := [.given "uid", .given "display-name", .given "default-placement",
        .given "email", .given "generate-key", .ofEachKey ["access-key", "secret-key"],
        .given "key-type", .given "max-buckets", .given "suspended", .given "op-mask",
        .given "account-id", .given "account-root"]
      requirements := [userId] }
  | createSubuser _ _ => {
      method := .put, path := "/user"
      parameters := [.given "uid", .given "subuser", .given "access", .given "access-key",
        .given "secret-key", .given "generate-secret", .given "gen-access-key", .given "key-type"]
      requirements := [userId, subuserName, .validAccess] }
  | modifySubuser _ _ => {
      method := .post, path := "/user"
      parameters := [.given "uid", .given "subuser", .given "access", .given "secret",
        .given "generate-secret", .given "key-type"]
      requirements := [userId, subuserName, .validAccess] }
  | removeSubuser _ _ => {
      method := .delete, path := "/user"
      parameters := [.given "uid", .given "subuser", .given "purge-keys"]
      requirements := [userId, subuserName] }
  | createKey _ => {
      method := .put, path := "/user?key"
      parameters := [.given "uid", .given "subuser", .given "access-key", .given "secret-key",
        .given "key-type", .given "generate-key"]
      requirements := [.givenForKeyType "swift" "subuser" "subuser id",
        .givenForKeyType "s3" "uid" "user id"] }
  | removeKey _ => {
      method := .delete, path := "/user?key"
      parameters := [.given "uid", .given "subuser", .given "access-key", .given "key-type"]
      requirements := [.givenForKeyType "swift" "subuser" "subuser id",
        .givenForKeyType "s3" "uid" "user id", .givenForKeyType "s3" "access-key" "access key"] }
  | addCaps _ _ => {
      method := .put, path := "/user?caps"
      parameters := [.given "uid", .given "user-caps"]
      requirements := [userId, .given "user-caps" "user cap"] }
  | removeCaps _ _ => {
      method := .delete, path := "/user?caps"
      parameters := [.given "uid", .given "user-caps"]
      requirements := [userId, .given "user-caps" "user cap"] }
  | getQuota .user _ => {
      method := .get, path := "/user?quota"
      parameters := [.given "uid", .constant "quota-type" "user"]
      requirements := [userId] }
  | setQuota .user _ => {
      method := .put, path := "/user?quota"
      parameters := [.given "uid", .constant "quota-type" "user", .given "enabled",
        .given "max-size", .given "max-size-kb", .given "max-objects"]
      requirements := [userId] }
  | getQuota .bucket _ => {
      method := .get, path := "/user?quota"
      parameters := [.given "uid", .constant "quota-type" "bucket"]
      requirements := [userId] }
  | setQuota .bucket _ => {
      method := .put, path := "/user?quota"
      parameters := [.given "uid", .constant "quota-type" "bucket", .given "enabled",
        .given "max-size", .given "max-size-kb", .given "max-objects"]
      requirements := [userId] }
  | setIndividualBucketQuota _ => {
      method := .put, path := "/bucket?quota"
      parameters := [.given "bucket", .given "uid", .given "enabled", .given "max-size",
        .given "max-size-kb", .given "max-objects"]
      requirements := [userId, bucketName] }
  | listBuckets => {
      method := .get, path := "/bucket"
      parameters := []
      requirements := [] }
  | listBucketRecords => {
      method := .get, path := "/bucket"
      parameters := [.constant "stats" "true"]
      requirements := [] }
  | listUserBuckets _ => {
      method := .get, path := "/bucket"
      parameters := [.given "uid", .constant "stats" "false"]
      requirements := [userId] }
  | listUserBucketRecords _ => {
      method := .get, path := "/bucket"
      parameters := [.given "uid", .constant "stats" "true"]
      requirements := [userId] }
  | getBucket _ => {
      method := .get, path := "/bucket"
      parameters := [.given "bucket", .given "uid", .given "stats"]
      requirements := [bucketName] }
  | getBucketPolicy _ => {
      method := .get, path := "/bucket?policy"
      parameters := [.given "bucket"]
      requirements := [bucketName] }
  | removeBucket _ => {
      method := .delete, path := "/bucket"
      parameters := [.given "bucket", .given "purge-objects"]
      requirements := [bucketName] }
  | linkBucket _ => {
      method := .put, path := "/bucket"
      parameters := [.given "uid", .given "bucket-id", .given "bucket", .given "new-bucket-name"]
      requirements := [userId, bucketName] }
  | unlinkBucket _ => {
      method := .post, path := "/bucket"
      parameters := [.given "uid", .given "bucket"]
      requirements := [userId, bucketName] }
  | checkBucketIndex _ => {
      method := .get, path := "/bucket?index"
      parameters := [.given "bucket", .given "check-objects", .given "fix"]
      requirements := [bucketName] }
  | getUsage _ => {
      method := .get, path := "/usage"
      parameters := [.given "uid", .given "start", .given "end", .given "show-entries",
        .given "show-summary"]
      requirements := [] }
  | trimUsage _ => {
      method := .delete, path := "/usage"
      parameters := [.given "uid", .given "start", .given "end", .given "remove-all"]
      requirements := [] }
  | getInfo => {
      method := .get, path := "/info"
      parameters := []
      requirements := [] }
  | createAccount _ => {
      method := .post, path := "/account"
      parameters := [.given "id", .given "name", .given "email", .given "tenant",
        .given "max-users", .given "max-roles", .given "max-groups", .given "max-access-keys",
        .given "max-buckets"]
      requirements := [] }
  | getAccount _ => {
      method := .get, path := "/account"
      parameters := [.given "id"]
      requirements := [accountId] }
  | removeAccount _ => {
      method := .delete, path := "/account"
      parameters := [.given "id"]
      requirements := [accountId] }
  | modifyAccount _ => {
      method := .put, path := "/account"
      parameters := [.given "id", .given "name", .given "email", .given "tenant",
        .given "max-users", .given "max-roles", .given "max-groups", .given "max-access-keys",
        .given "max-buckets"]
      requirements := [accountId] }

end Operation
end GatewayAdmin
