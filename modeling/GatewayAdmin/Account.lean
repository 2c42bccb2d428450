import GatewayAdmin.Quota
/-! Accounts, which own users and share limits among them. -/
namespace GatewayAdmin

structure Account where
  id : Option String := none
  name : Option String := none
  email : Option String := none
  tenant : Option String := none
  maxUsers : Option Int64 := none
  maxRoles : Option Int64 := none
  maxGroups : Option Int64 := none
  maxAccessKeys : Option Int64 := none
  maxBuckets : Option Int64 := none
  quota : Option Quota := none
  bucketQuota : Option Quota := none
deriving DecidableEq

def Account.schema : Schema Account where
  fields := [
    .optional "id" .text (·.id) fun r v => { r with id := v },
    .optional "name" .text (·.name) fun r v => { r with name := v },
    .optional "email" .text (·.email) fun r v => { r with email := v },
    .optional "tenant" .text (·.tenant) fun r v => { r with tenant := v },
    .optional "max_users" .int64 (·.maxUsers) fun r v => { r with maxUsers := v },
    .optional "max_roles" .int64 (·.maxRoles) fun r v => { r with maxRoles := v },
    .optional "max_groups" .int64 (·.maxGroups) fun r v => { r with maxGroups := v },
    .optional "max_access_keys" .int64 (·.maxAccessKeys) fun r v => { r with maxAccessKeys := v },
    .optional "max_buckets" .int64 (·.maxBuckets) fun r v => { r with maxBuckets := v },
    .optional "quota" Quota.codec (·.quota) fun r v => { r with quota := v },
    .optional "bucket_quota" Quota.codec (·.bucketQuota) fun r v => { r with bucketQuota := v }]
  blank := {}

def Account.codec : Codec Account := Account.schema.codec

namespace Account

def addFields (a : Account) (args : Arguments) : Arguments :=
  args
    |>.add "name" a.name
    |>.add "email" a.email
    |>.add "tenant" a.tenant
    |>.add "max-users" a.maxUsers
    |>.add "max-roles" a.maxRoles
    |>.add "max-groups" a.maxGroups
    |>.add "max-access-keys" a.maxAccessKeys
    |>.add "max-buckets" a.maxBuckets

/-- The gateway makes up an id where none is given. -/
def createArguments (a : Account) : Arguments := a.addFields (Arguments.admin.add "id" a.id)

def modifyArguments (a : Account) : Validated Arguments := do
  let id ← require "account id" a.id
  return a.addFields (Arguments.admin.add "id" id)

def idArguments (id : String) : Validated Arguments := do
  let id ← require "account id" id
  return Arguments.admin.add "id" id

end Account
end GatewayAdmin
