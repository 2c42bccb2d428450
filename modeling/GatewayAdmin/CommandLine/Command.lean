import GatewayAdmin.Client
import GatewayAdmin.CommandLine.Grammar
/-! The commands: what may be written on the command line, and the operation that each of them
stands for. A run of a command performs it once, and prints the reply if it has one. -/
namespace GatewayAdmin.CommandLine

/-- Fields that creating and modifying a user share. -/
structure UserFields where
  displayName : Option String := none
  email : Option String := none
  maxBuckets : Option Int32 := none
  suspended : Option Int32 := none
  generateKey : Bool := false
deriving DecidableEq

inductive Command where
  | info
  | userList
  | userGet (uid : String) (stats : Bool)
  | userCreate (uid : String) (fields : UserFields)
  | userRemove (uid : String) (purgeData : Bool)
  | userModify (uid : String) (fields : UserFields)
  | userQuotaGet (uid : String) (bucket : Bool)
  | userQuotaSet (uid : String) (bucket : Bool) (enabled : Option Bool)
      (maxSize maxObjects : Option Int64)
  | bucketList (uid : Option String) (stats : Bool)
  | bucketInfo (bucket : String)
  | bucketPolicy (bucket : String)
  | bucketRemove (bucket : String) (purgeObjects : Bool)
  | bucketLink (bucket uid : String) (bucketId : Option String)
  | bucketUnlink (bucket uid : String)
  | bucketCheckIndex (bucket : String) (checkObjects fix : Bool)
  | keyCreate (uid : String) (accessKey secretKey : Option String)
  | keyRemove (uid accessKey : String)
  | capsAdd (uid caps : String)
  | capsRemove (uid caps : String)
  | usageGet (uid start stop : Option String)
  | usageTrim (uid start stop : Option String) (removeAll : Bool)
  | accountGet (id : String)
  | accountCreate (name id email : Option String)
  | accountRemove (id : String)
deriving DecidableEq

namespace Command

/-- A flag that is not given leaves its parameter out. -/
def given (flag : Bool) : Option Bool := if flag then some true else none

def userOfFields (uid : String) (f : UserFields) : User :=
  { id := uid, displayName := f.displayName, email := f.email, maxBuckets := f.maxBuckets,
    suspended := f.suspended, generateKey := given f.generateKey }

def quotaType (bucket : Bool) : QuotaTarget := if bucket then .bucket else .user

def operation : Command → Operation
  | info => .getInfo
  | userList => .listUsers
  | userGet uid stats => .getUser { id := uid, generateStat := given stats }
  | userCreate uid fields => .createUser (userOfFields uid fields)
  | userRemove uid purgeData => .removeUser { id := uid, purgeData := given purgeData }
  | userModify uid fields => .modifyUser (userOfFields uid fields)
  | userQuotaGet uid bucket => .getQuota (quotaType bucket) { userId := uid }
  | userQuotaSet uid bucket enabled maxSize maxObjects =>
    .setQuota (quotaType bucket)
      { userId := uid, enabled := enabled, maxSize := maxSize, maxObjects := maxObjects }
  | bucketList none false => .listBuckets
  | bucketList none true => .listBucketRecords
  | bucketList (some uid) false => .listUserBuckets uid
  | bucketList (some uid) true => .listUserBucketRecords uid
  | bucketInfo bucket => .getBucket { name := bucket }
  | bucketPolicy bucket => .getBucketPolicy { name := bucket }
  | bucketRemove bucket purgeObjects =>
    .removeBucket { name := bucket, purgeObjects := given purgeObjects }
  | bucketLink bucket uid bucketId =>
    .linkBucket { bucket := bucket, bucketId := bucketId, userId := uid }
  | bucketUnlink bucket uid => .unlinkBucket { bucket := bucket, userId := uid }
  | bucketCheckIndex bucket checkObjects fix =>
    .checkBucketIndex { bucket := bucket, checkObjects := checkObjects, fix := fix }
  | keyCreate uid accessKey secretKey =>
    .createKey
      { uid := uid, accessKey := accessKey, secretKey := secretKey,
        generateKey := given (accessKey.isNone && secretKey.isNone) }
  | keyRemove uid accessKey => .removeKey { uid := uid, accessKey := accessKey }
  | capsAdd uid caps => .addCaps uid caps
  | capsRemove uid caps => .removeCaps uid caps
  | usageGet uid start stop =>
    .getUsage
      { userId := uid, start := start, stop := stop, showEntries := true, showSummary := true }
  | usageTrim uid start stop removeAll =>
    .trimUsage { userId := uid, start := start, stop := stop, removeAll := given removeAll }
  | accountGet id => .getAccount id
  | accountCreate name id email => .createAccount { id := id, name := name, email := email }
  | accountRemove id => .removeAccount id

end Command

/-- What the command line has to say about the configuration. -/
structure Overrides where
  endpoint : Option String := none
  accessKey : Option String := none
  secretKey : Option String := none
  logLevel : Option String := none
deriving DecidableEq

def Overrides.apply (o : Overrides) (c : Config) : Config :=
  { c with
    endpoint := o.endpoint.getD c.endpoint
    accessKey := o.accessKey.getD c.accessKey
    secretKey := o.secretKey.getD c.secretKey
    logLevel := o.logLevel.getD c.logLevel }

def textOption (long : String) : OptionRule := { long := long, kind := .value .text }

def flag (long : String) : OptionRule := { long := long, kind := .flag }

def helpOption : OptionRule := { long := "help", kind := .help, short := 'h' }

def versionOption : OptionRule := { long := "version", kind := .version, short := 'V' }

def globalOptions : List OptionRule := [
  { textOption "endpoint" with short := 'e' },
  textOption "access-key", textOption "secret-key", textOption "log-level", helpOption]

def userFieldOptions : List OptionRule := [
  textOption "display-name", textOption "email",
  { long := "max-buckets", kind := .value .int32 },
  { long := "suspended", kind := .value .int32 },
  flag "generate-key"]

def rangeOptions : List OptionRule := [textOption "uid", textOption "start", textOption "end"]

def sizeOption (long : String) : OptionRule :=
  { long := long, kind := .value .int64, hyphens := true }

def ownerOption : OptionRule := { textOption "uid" with required := true }

/-- A word has the name of the option that it stands in for where there is one. -/
def commandTree : CommandRule :=
  .group "" [] [
    .leaf "info" [] [],
    .group "user" [] [
      .leaf "list" [] [],
      .leaf "get" [flag "stats"] ["uid"],
      .leaf "create" userFieldOptions ["uid"],
      .leaf "remove" [flag "purge-data"] ["uid"],
      .leaf "modify" userFieldOptions ["uid"],
      .leaf "quota-get" [flag "bucket"] ["uid"],
      .leaf "quota-set"
        [flag "bucket", { long := "enabled", kind := .value .switch }, sizeOption "max-size",
          sizeOption "max-objects"] ["uid"]],
    .group "bucket" [] [
      .leaf "list" [textOption "uid", flag "stats"] [],
      .leaf "info" [] ["bucket"],
      .leaf "policy" [] ["bucket"],
      .leaf "remove" [flag "purge-objects"] ["bucket"],
      .leaf "link" [ownerOption, textOption "bucket-id"] ["bucket"],
      .leaf "unlink" [ownerOption] ["bucket"],
      .leaf "check-index" [flag "check-objects", flag "fix"] ["bucket"]],
    .group "key" [] [
      .leaf "create" [textOption "access-key", textOption "secret-key"] ["uid"],
      .leaf "remove" [] ["uid", "access-key"]],
    .group "caps" [] [
      .leaf "add" [] ["uid", "caps"],
      .leaf "remove" [] ["uid", "caps"]],
    .group "usage" [] [
      .leaf "get" rangeOptions [],
      .leaf "trim" (rangeOptions ++ [flag "remove-all"]) []],
    .group "account" [] [
      .leaf "get" [] ["id"],
      .leaf "create" [textOption "name", textOption "id", textOption "email"] [],
      .leaf "remove" [] ["id"]]]

namespace Matches

def userFields (m : Matches) : UserFields where
  displayName := m.text? "display-name"
  email := m.text? "email"
  maxBuckets := (m.integer? "max-buckets").map Int32.ofInt
  suspended := (m.integer? "suspended").map Int32.ofInt
  generateKey := m.has "generate-key"

def overrides (m : Matches) : Overrides where
  endpoint := m.text? "endpoint"
  accessKey := m.text? "access-key"
  secretKey := m.text? "secret-key"
  logLevel := m.text? "log-level"

/-- The command at the end of a path of the tree. -/
def command? (m : Matches) : Option Command :=
  match m.path with
  | ["info"] => some .info
  | ["user", "list"] => some .userList
  | ["user", "get"] => some (.userGet (m.word "uid") (m.has "stats"))
  | ["user", "create"] => some (.userCreate (m.word "uid") m.userFields)
  | ["user", "remove"] => some (.userRemove (m.word "uid") (m.has "purge-data"))
  | ["user", "modify"] => some (.userModify (m.word "uid") m.userFields)
  | ["user", "quota-get"] => some (.userQuotaGet (m.word "uid") (m.has "bucket"))
  | ["user", "quota-set"] =>
    some (.userQuotaSet (m.word "uid") (m.has "bucket") (m.switch? "enabled")
      ((m.integer? "max-size").map Int64.ofInt) ((m.integer? "max-objects").map Int64.ofInt))
  | ["bucket", "list"] => some (.bucketList (m.text? "uid") (m.has "stats"))
  | ["bucket", "info"] => some (.bucketInfo (m.word "bucket"))
  | ["bucket", "policy"] => some (.bucketPolicy (m.word "bucket"))
  | ["bucket", "remove"] => some (.bucketRemove (m.word "bucket") (m.has "purge-objects"))
  | ["bucket", "link"] =>
    some (.bucketLink (m.word "bucket") (m.word "uid") (m.text? "bucket-id"))
  | ["bucket", "unlink"] => some (.bucketUnlink (m.word "bucket") (m.word "uid"))
  | ["bucket", "check-index"] =>
    some (.bucketCheckIndex (m.word "bucket") (m.has "check-objects") (m.has "fix"))
  | ["key", "create"] =>
    some (.keyCreate (m.word "uid") (m.text? "access-key") (m.text? "secret-key"))
  | ["key", "remove"] => some (.keyRemove (m.word "uid") (m.word "access-key"))
  | ["caps", "add"] => some (.capsAdd (m.word "uid") (m.word "caps"))
  | ["caps", "remove"] => some (.capsRemove (m.word "uid") (m.word "caps"))
  | ["usage", "get"] => some (.usageGet (m.text? "uid") (m.text? "start") (m.text? "end"))
  | ["usage", "trim"] =>
    some (.usageTrim (m.text? "uid") (m.text? "start") (m.text? "end") (m.has "remove-all"))
  | ["account", "get"] => some (.accountGet (m.word "id"))
  | ["account", "create"] =>
    some (.accountCreate (m.text? "name") (m.text? "id") (m.text? "email"))
  | ["account", "remove"] => some (.accountRemove (m.word "id"))
  | _ => none

end Matches

/-- A command line that was understood. -/
structure Invocation where
  overrides : Overrides
  command : Command
deriving DecidableEq

def Invocation.ofWords (words : List String) : Except UsageError Invocation := do
  let m ← read globalOptions [versionOption] commandTree words
  match m.command? with
  | some command => return ⟨m.overrides, command⟩
  | none => .error .invalidSubcommand

/-! ### Runs -/

/-- The text that a reply is printed as. -/
def printed (reply : Option Reply) : String :=
  match reply with
  | some reply => reply.write.pretty ++ "\n"
  | none => ""

structure RunResult where
  output : String
  error : Option CallError
  transport : Transport

/-- A failure prints nothing. -/
def run (client : Client) (command : Command) (time : Instant) (t : Transport) : RunResult :=
  match client.perform command.operation time t with
  | (.ok reply, t) => ⟨printed reply, none, t⟩
  | (.error e, t) => ⟨"", some e, t⟩

end GatewayAdmin.CommandLine
