import GatewayAdmin.Account
import GatewayAdmin.Bucket
import GatewayAdmin.Info
import GatewayAdmin.Request
import GatewayAdmin.Usage
import GatewayAdmin.User
/-! The operations of the admin API: what each needs, how it is asked for, and what its reply is. -/
namespace GatewayAdmin

inductive Operation where
  | getUser (user : User)
  | listUsers
  | createUser (user : User)
  | removeUser (user : User)
  | modifyUser (user : User)
  | createSubuser (uid : String) (subuser : Subuser)
  | modifySubuser (uid : String) (subuser : Subuser)
  | removeSubuser (uid : String) (subuser : Subuser)
  | createKey (key : UserKey)
  | removeKey (key : UserKey)
  | addCaps (uid caps : String)
  | removeCaps (uid caps : String)
  | listBuckets
  | listBucketRecords
  | listUserBuckets (uid : String)
  | listUserBucketRecords (uid : String)
  | getBucket (bucket : Bucket)
  | getBucketPolicy (bucket : Bucket)
  | removeBucket (bucket : Bucket)
  | linkBucket (link : BucketLink)
  | unlinkBucket (link : BucketLink)
  | checkBucketIndex (check : IndexCheck)
  | getQuota (type : QuotaTarget) (quota : Quota)
  | setQuota (type : QuotaTarget) (quota : Quota)
  | setIndividualBucketQuota (quota : Quota)
  | getUsage (request : UsageQuery)
  | trimUsage (request : UsageQuery)
  | createAccount (account : Account)
  | getAccount (id : String)
  | removeAccount (id : String)
  | modifyAccount (account : Account)
  | getInfo
deriving DecidableEq

/-- The records that a reply may hold. -/
inductive ReplyKind where
  | user
  | bucket
  | policy
  | indexReport
  | quota
  | usage
  | account
  | info
  | names
  | buckets
  | keys
  | caps
deriving DecidableEq

namespace ReplyKind

def modelType (name : String) : String := "rgw_admin_model::" ++ name

def listType (name : String) : String := "alloc::vec::Vec<" ++ name ++ ">"

/-- The type that messages name. -/
def typeName : ReplyKind → String
  | user => modelType "user::User"
  | bucket => modelType "bucket::Bucket"
  | policy => modelType "bucket::Policy"
  | indexReport => modelType "bucket::CheckBucketIndexResponse"
  | quota => modelType "quota::QuotaSpec"
  | usage => modelType "usage::Usage"
  | account => modelType "account::Account"
  | info => modelType "info::Info"
  | names => listType "alloc::string::String"
  | buckets => listType (modelType "bucket::Bucket")
  | keys => listType (modelType "user::UserKeySpec")
  | caps => listType (modelType "user::UserCapSpec")

end ReplyKind

inductive Reply where
  | user (user : User)
  | bucket (bucket : Bucket)
  | policy (policy : Policy)
  | indexReport (report : IndexReport)
  | quota (quota : Quota)
  | usage (usage : Usage)
  | account (account : Account)
  | info (info : Info)
  | names (names : List String)
  | buckets (buckets : List Bucket)
  | keys (keys : List UserKey)
  | caps (caps : List Capability)
deriving DecidableEq

def ReplyKind.read (kind : ReplyKind) (body : List UInt8) : Json.Read Reply :=
  match kind with
  | user => Reply.user <$> User.codec.decode body
  | bucket => Reply.bucket <$> Bucket.codec.decode body
  | policy => Reply.policy <$> Policy.codec.decode body
  | indexReport => Reply.indexReport <$> IndexReport.codec.decode body
  | quota => Reply.quota <$> Quota.codec.decode body
  | usage => Reply.usage <$> Usage.codec.decode body
  | account => Reply.account <$> Account.codec.decode body
  | info => Reply.info <$> Info.codec.decode body
  | names => Reply.names <$> (Codec.list .text).decode body
  | buckets => Reply.buckets <$> (Codec.list Bucket.codec).decode body
  | keys => Reply.keys <$> (Codec.list UserKey.codec).decode body
  | caps => Reply.caps <$> (Codec.list Capability.codec).decode body

def Reply.write : Reply → Json.Value
  | user x => User.codec.write x
  | bucket x => Bucket.codec.write x
  | policy x => Policy.codec.write x
  | indexReport x => IndexReport.codec.write x
  | quota x => Quota.codec.write x
  | usage x => Usage.codec.write x
  | account x => Account.codec.write x
  | info x => Info.codec.write x
  | names xs => (Codec.list .text).write xs
  | buckets xs => (Codec.list Bucket.codec).write xs
  | keys xs => (Codec.list UserKey.codec).write xs
  | caps xs => (Codec.list Capability.codec).write xs

namespace Operation

def arguments : Operation → Validated Arguments
  | getUser user => user.getArguments
  | listUsers => .ok .admin
  | createUser user => user.createArguments
  | removeUser user => user.removeArguments
  | modifyUser user => user.modifyArguments
  | createSubuser uid subuser => subuser.createArguments uid
  | modifySubuser uid subuser => subuser.modifyArguments uid
  | removeSubuser uid subuser => subuser.removeArguments uid
  | createKey key => key.createArguments
  | removeKey key => key.removeArguments
  | addCaps uid caps => userCapsArguments uid caps
  | removeCaps uid caps => userCapsArguments uid caps
  | listBuckets => .ok (Bucket.listArguments none none)
  | listBucketRecords => .ok (Bucket.listArguments none true)
  | listUserBuckets uid => Bucket.userListArguments uid false
  | listUserBucketRecords uid => Bucket.userListArguments uid true
  | getBucket bucket => bucket.infoArguments
  | getBucketPolicy bucket => bucket.policyArguments
  | removeBucket bucket => bucket.removeArguments
  | linkBucket link => link.linkArguments
  | unlinkBucket link => link.unlinkArguments
  | checkBucketIndex check => check.arguments
  | getQuota type quota => quota.getArguments type
  | setQuota type quota => quota.setArguments type
  | setIndividualBucketQuota quota => quota.individualBucketArguments
  | getUsage request => .ok request.getArguments
  | trimUsage request => .ok request.trimArguments
  | createAccount account => .ok account.createArguments
  | getAccount id => Account.idArguments id
  | removeAccount id => Account.idArguments id
  | modifyAccount account => account.modifyArguments
  | getInfo => .ok .admin

def method : Operation → Method
  | getUser _ | listUsers | listBuckets | listBucketRecords | listUserBuckets _
  | listUserBucketRecords _ | getBucket _ | getBucketPolicy _ | checkBucketIndex _ | getQuota _ _
  | getUsage _ | getAccount _ | getInfo => .get
  | createUser _ | createSubuser _ _ | createKey _ | addCaps _ _ | linkBucket _ | setQuota _ _
  | setIndividualBucketQuota _ | modifyAccount _ => .put
  | modifyUser _ | modifySubuser _ _ | unlinkBucket _ | createAccount _ => .post
  | removeUser _ | removeSubuser _ _ | removeKey _ | removeCaps _ _ | removeBucket _ | trimUsage _
  | removeAccount _ => .delete

/-- The path below the admin root, with the sub-resource where there is one. -/
def resource : Operation → String
  | getUser _ | createUser _ | removeUser _ | modifyUser _ | createSubuser _ _ | modifySubuser _ _
  | removeSubuser _ _ => "/user"
  | listUsers => "/metadata/user"
  | createKey _ | removeKey _ => "/user?key"
  | addCaps _ _ | removeCaps _ _ => "/user?caps"
  | listBuckets | listBucketRecords | listUserBuckets _ | listUserBucketRecords _ | getBucket _
  | removeBucket _ | linkBucket _ | unlinkBucket _ => "/bucket"
  | getBucketPolicy _ => "/bucket?policy"
  | checkBucketIndex _ => "/bucket?index"
  | getQuota _ _ | setQuota _ _ => "/user?quota"
  | setIndividualBucketQuota _ => "/bucket?quota"
  | getUsage _ | trimUsage _ => "/usage"
  | createAccount _ | getAccount _ | removeAccount _ | modifyAccount _ => "/account"
  | getInfo => "/info"

/-- Operations without a kind of reply pay no attention to the body. -/
def replyKind? : Operation → Option ReplyKind
  | getUser _ | createUser _ | modifyUser _ => some .user
  | listUsers | listBuckets | listUserBuckets _ => some .names
  | createKey _ => some .keys
  | addCaps _ _ | removeCaps _ _ => some .caps
  | listBucketRecords | listUserBucketRecords _ => some .buckets
  | getBucket _ => some .bucket
  | getBucketPolicy _ => some .policy
  | checkBucketIndex _ => some .indexReport
  | getQuota _ _ => some .quota
  | getUsage _ => some .usage
  | createAccount _ | getAccount _ | modifyAccount _ => some .account
  | getInfo => some .info
  | removeUser _ | createSubuser _ _ | modifySubuser _ _ | removeSubuser _ _ | removeKey _
  | removeBucket _ | linkBucket _ | unlinkBucket _ | setQuota _ _ | setIndividualBucketQuota _
  | trimUsage _ | removeAccount _ => none

end Operation
end GatewayAdmin
