import GatewayAdmin.Proofs.AdminRequestTarget
import GatewayAdmin.Proofs.CallRuns
import GatewayAdmin.Proofs.OperationTable

/-! Every operation follows its row of the table. A builder checks one requirement after the other
and then lists its parameters: `Conforms` goes along with it, a rule for each of these steps. -/
namespace GatewayAdmin

theorem Text.integer_eq (n : Int) : integer n = toString n := by
  cases n with
  | ofNat n => rfl
  | negSucc n =>
    have hn : integer (Int.negSucc n) = String.ofList ('-' :: Nat.toDigits 10 (n + 1)) := by
      rw [integer, integerChars, if_pos (Int.negSucc_lt_zero n)]
      rfl
    rw [hn, show toString (Int.negSucc n) = "-" ++ String.ofList (Nat.toDigits 10 (n + 1)) from rfl,
      ← String.toList_inj]
    simp

namespace ArgumentValue

@[simp] theorem written?_text_none : (text none).written? = none := rfl

@[simp] theorem written?_text_some {s : String} (h : s ≠ "") :
    (text (some s)).written? = some s := by
  simp [written?, Option.filter, h]

@[simp] theorem written?_flag_none : (flag none).written? = none := rfl

@[simp] theorem written?_flag_true : (flag (some true)).written? = some "true" := rfl

@[simp] theorem written?_flag_false : (flag (some false)).written? = some "false" := rfl

theorem isSome_written?_text (x : Option String) : (text x).written?.isSome = isGiven x := by
  cases x with
  | none => rfl
  | some s => by_cases h : s = "" <;> simp [written?, isGiven, Option.filter, h]

theorem getD_written?_text (x : Option String) : (text x).written?.getD "" = x.getD "" := by
  cases x with
  | none => rfl
  | some s => by_cases h : s = "" <;> simp [written?, Option.filter, h]

end ArgumentValue

namespace ArgumentText

@[simp] theorem text?_string (s : String) : text? s = (ArgumentValue.text (some s)).written? := by
  by_cases h : s = "" <;> simp [text?, ArgumentValue.written?, Option.filter, h]

@[simp] theorem text?_bool (b : Bool) : text? b = (ArgumentValue.flag (some b)).written? := by
  cases b <;> rfl

@[simp] theorem text?_optionString (x : Option String) :
    text? x = (ArgumentValue.text x).written? := by
  cases x with
  | none => rfl
  | some s => exact text?_string s

@[simp] theorem text?_optionBool (x : Option Bool) : text? x = (ArgumentValue.flag x).written? := by
  cases x with
  | none => rfl
  | some b => exact text?_bool b

@[simp] theorem text?_optionInt32 (x : Option Int32) :
    text? x = (ArgumentValue.number (x.map Int32.toInt)).written? := by
  cases x with
  | none => rfl
  | some n => exact congrArg some (Text.integer_eq n.toInt)

@[simp] theorem text?_optionInt64 (x : Option Int64) :
    text? x = (ArgumentValue.number (x.map Int64.toInt)).written? := by
  cases x with
  | none => rfl
  | some n => exact congrArg some (Text.integer_eq n.toInt)

end ArgumentText

namespace Arguments

@[simp] theorem present_admin : admin.present = [("format", "json")] := rfl

@[simp] theorem present_add {α : Type} [ArgumentText α] (q : Arguments) (name : String)
    (value : α) :
    (q.add name value).present =
      q.present ++ ((ArgumentText.text? value).map (name, ·)).toList := by
  rw [present, pairs_add, List.filterMap_append, ← present]
  cases ArgumentText.text? value with
  | none => rfl
  | some text => rfl

end Arguments

namespace User

@[simp] theorem present_addKeyPairs (u : User) (q : Arguments) :
    (u.addKeyPairs q).present =
      q.present ++ (Parameter.ofEachKey ["access-key", "secret-key"]).sent u.input := by
  rw [Arguments.present, pairs_addKeyPairs, List.filterMap_append, List.filterMap_flatMap,
    ← Arguments.present]
  simp [keyList, List.flatMap_map, List.filterMap_cons]

@[simp] theorem present_addAccessKeys (u : User) (q : Arguments) :
    (u.keyList.foldl (fun args key => args.add "access-key" key.accessKey) q).present =
      q.present ++ (Parameter.ofEachKey ["access-key"]).sent u.input := by
  rw [Arguments.present, pairs_addAccessKeys, List.filterMap_append, List.filterMap_flatMap,
    ← Arguments.present]
  simp [keyList, List.flatMap_map, List.filterMap_cons]

end User

theorem AccessLevel.isSome_ofInput? (s : String) :
    (ofInput? s).isSome = ["", "read", "write", "readwrite", "full"].contains s := by
  rw [ofInput?, List.isSome_find?]
  simp [all, input, eq_comm]

theorem discard_require (label : String) (x : Option String) :
    discard (require label x) = if isGiven x then .ok () else .error (.missingField label) := by
  cases x with
  | none => rfl
  | some s =>
    by_cases h : s = ""
    · subst h
      rfl
    · have hrequire : require label (some s) = .ok s := by simp [require, Option.filter, h]
      have hgiven : isGiven (some s) = true := by simp [isGiven, h]
      rw [hrequire, hgiven]
      rfl

theorem forM_require {κ : Type} (label : String) (x : κ → Option String) (ks : List κ) :
    (ks.forM fun k => discard (require label (x k))) =
      if ks.all fun k => isGiven (x k) then .ok () else .error (.missingField label) := by
  induction ks with
  | nil => rfl
  | cons k ks ih =>
    change (discard (require label (x k)) >>= fun _ => ks.forM _) = _
    rw [ih, discard_require, List.all_cons]
    cases isGiven (x k) with
    | false => rfl
    | true => rfl

/-- The validation goes along with the requirements from the first on, and lists what is to be sent
if they are all met. -/
inductive Conforms (input : CallInput) (sent : List (String × String)) :
    List Requirement → Validated Arguments → Prop
  | met_all {args : Arguments} (h : args.present = sent) : Conforms input sent [] (.ok args)
  | unmet {r : Requirement} {rs : List Requirement} (h : r.isMet input = false) :
      Conforms input sent (r :: rs) (.error (r.error input))
  | met {r : Requirement} {rs : List Requirement} {v : Validated Arguments}
      (h : r.isMet input = true) (hrest : Conforms input sent rs v) :
      Conforms input sent (r :: rs) v

namespace Conforms

variable {input : CallInput} {sent : List (String × String)} {r : Requirement}
  {rs : List Requirement} {v : Validated Arguments} {name label : String}

theorem result (h : Conforms input sent rs v) :
    match rs.find? fun r => !r.isMet input with
    | some r => v = .error (r.error input)
    | none => ∃ args, v = .ok args ∧ args.present = sent := by
  induction h with
  | met_all h => exact ⟨_, rfl, h⟩
  | unmet h => simp [h]
  | met h hrest ih => simpa [List.find?_cons, h] using ih

theorem require {x : Option String} {f : String → Validated Arguments}
    (hx : input.values.written? name = (ArgumentValue.text x).written?)
    (hf : ∀ s, x = some s → Conforms input sent rs (f s)) :
    Conforms input sent (.given name label :: rs) (require label x >>= f) := by
  unfold GatewayAdmin.require
  change _ = x.filter (· ≠ "") at hx
  cases hs : x.filter (· ≠ "") with
  | none => exact .unmet (by rw [Requirement.isMet, hx, hs]; rfl)
  | some s =>
    have hmem := (Option.filter_eq_some_iff.mp hs).1
    exact .met (by rw [Requirement.isMet, hx, hs]; rfl) (hf s hmem)

/-- The rule for a requirement that is checked for its outcome alone. -/
theorem check {b : Bool} {e : ArgumentError} {f : Unit → Validated Arguments}
    (hmet : r.isMet input = b) (herror : r.error input = e) (hf : Conforms input sent rs (f ())) :
    Conforms input sent (r :: rs) ((if b then .ok () else .error e) >>= f) := by
  cases b with
  | false => exact herror ▸ .unmet hmet
  | true => exact .met hmet hf

theorem checkAccess {s : Subuser} {f : Unit → Validated Arguments}
    (hx : input.values.written? "access" = (ArgumentValue.text s.access).written?)
    (hf : Conforms input sent rs (f ())) :
    Conforms input sent (.validAccess :: rs) (s.checkAccess >>= f) := by
  have haccess : Requirement.access input = s.access.getD "" := by
    rw [Requirement.access, hx, ArgumentValue.getD_written?_text]
  refine check ?_ ?_ hf
  · rw [Requirement.isMet, haccess, AccessLevel.isSome_ofInput?]
  · rw [Requirement.error, haccess]

theorem requireForKeyType {type : String} {x : Option String} {f : Unit → Validated Arguments}
    (htype : Requirement.keyType input = type)
    (hx : input.values.written? name = (ArgumentValue.text x).written?)
    (hf : Conforms input sent rs (f ())) :
    Conforms input sent (.givenForKeyType type name label :: rs)
      (discard (GatewayAdmin.require label x) >>= f) := by
  rw [discard_require]
  refine check ?_ rfl hf
  rw [Requirement.isMet, htype, hx, ArgumentValue.isSome_written?_text]
  simp

theorem otherKeyType {type : String} (htype : Requirement.keyType input ≠ type)
    (h : Conforms input sent rs v) :
    Conforms input sent (.givenForKeyType type name label :: rs) v := by
  refine .met ?_ h
  simp [Requirement.isMet, htype]

end Conforms

theorem BucketLink.required_bind (l : BucketLink) (f : String × String → Validated Arguments) :
    l.required >>= f = require "user id" l.userId >>= fun uid =>
      require "bucket name" l.bucket >>= fun bucket => f (uid, bucket) := by
  simp [required]

theorem Quota.getArguments_bind (q : Quota) (type : QuotaTarget)
    (f : Arguments → Validated Arguments) :
    q.getArguments type >>= f = require "user id" q.userId >>= fun uid =>
      f ((Arguments.admin.add "uid" uid).add "quota-type" type.name) := by
  simp [getArguments]

namespace User

variable (u : User)

theorem getArguments_eq : u.getArguments =
    if isGiven u.id || !u.keyList.isEmpty then do
      u.keyList.forM fun key => discard (require "access key" key.accessKey)
      let args := Arguments.admin.add "uid" u.id
      let args := u.keyList.foldl (fun args key => args.add "access-key" key.accessKey) args
      return args.add "stats" u.generateStat
    else .error (.missingField "user id or access key") := by
  have hguard : (!isGiven u.id && u.keyList.isEmpty) = !(isGiven u.id || !u.keyList.isEmpty) := by
    rw [Bool.not_or, Bool.not_not]
  unfold getArguments
  rw [hguard]
  cases isGiven u.id || !u.keyList.isEmpty with
  | false => rfl
  | true => rfl

theorem isMet_userOrKey :
    Requirement.userOrKey.isMet u.input = (isGiven u.id || !u.keyList.isEmpty) := by
  change ((ArgumentValue.text u.id).written?.isSome || !(u.keyList.map UserKey.values).isEmpty) = _
  rw [ArgumentValue.isSome_written?_text, List.isEmpty_map]

theorem isMet_eachKey (label : String) :
    (Requirement.givenInEachKey "access-key" label).isMet u.input =
      u.keyList.all fun key => isGiven key.accessKey := by
  change ((u.keyList.map UserKey.values).all fun key => (key.written? "access-key").isSome) = _
  rw [List.all_map]
  exact congrArg _ (funext fun key => ArgumentValue.isSome_written?_text key.accessKey)

end User

namespace UserKey

variable {k : UserKey} {type : KeyType}

theorem keyType_eq (h : k.keyType.getD .standard = type) :
    Requirement.keyType ⟨k.values, []⟩ = type.name := by
  change ((ArgumentValue.text (k.keyType.map KeyType.name)).written?).getD "s3" = type.name
  rw [← h]
  cases k.keyType with
  | none => rfl
  | some type => cases type <;> rfl

theorem keyType_ne {other : String} (h : k.keyType.getD .standard = type)
    (hother : type.name ≠ other) : Requirement.keyType ⟨k.values, []⟩ ≠ other :=
  keyType_eq h ▸ hother

theorem checkOwner_swift (h : k.keyType.getD .standard = .swift) (needsAccessKey : Bool) :
    k.checkOwner needsAccessKey = discard (require "subuser id" k.subuser) := by
  rw [checkOwner, h]

theorem checkOwner_bind_s3 (h : k.keyType.getD .standard = .s3) (needsAccessKey : Bool)
    (f : Unit → Validated Arguments) :
    k.checkOwner needsAccessKey >>= f = discard (require "user id" k.uid) >>= fun _ =>
      (if needsAccessKey then discard (require "access key" k.accessKey) else pure ()) >>= f := by
  rw [checkOwner, h]
  exact bind_assoc ..

end UserKey

/-- One operation after the other: its builder makes the checks that its row lists, in that order,
and lists the row's parameters. -/
theorem Operation.arguments_follow_row (op : Operation) :
    Conforms op.input (("format", "json") :: op.row.sent op.input) op.row.requirements
      op.arguments := by
  cases op with
  | listUsers | listBuckets | listBucketRecords | getInfo | getUsage _ | trimUsage _
  | createAccount _ =>
    -- nothing is required of these
    apply Conforms.met_all
    simp [Bucket.listArguments, UsageQuery.getArguments, UsageQuery.trimArguments,
      UsageQuery.rangeArguments, Account.createArguments, Account.addFields]
  | removeUser _ | modifyUser _ | getBucket _ | getBucketPolicy _ | removeBucket _
  | checkBucketIndex _ | modifyAccount _ =>
    refine .require rfl fun value h => .met_all ?_
    simp [h, Account.addFields]
  | listUserBuckets _ | listUserBucketRecords _ | getAccount _ | removeAccount _ =>
    refine .require rfl fun value h => .met_all ?_
    obtain rfl := Option.some.inj h
    simp [Bucket.listArguments]
  | createUser _ | setIndividualBucketQuota _ =>
    refine .require rfl fun first h => .require rfl fun second h' => .met_all ?_
    simp [h, h', Quota.addLimits]
  | addCaps _ _ | removeCaps _ _ =>
    refine .require rfl fun uid h => .require rfl fun caps h' => .met_all ?_
    obtain rfl := Option.some.inj h
    obtain rfl := Option.some.inj h'
    simp
  | linkBucket link | unlinkBucket link =>
    change Conforms _ _ _ (link.required >>= _)
    rw [BucketLink.required_bind]
    refine .require rfl fun uid h => .require rfl fun bucket h' => .met_all ?_
    simp [h, h']
  | removeSubuser _ _ =>
    refine .require rfl fun uid h => .require rfl fun name h' => .met_all ?_
    obtain rfl := Option.some.inj h
    simp [h']
  | createSubuser _ _ | modifySubuser _ _ =>
    refine .require rfl fun uid h => .require rfl fun name h' => .checkAccess rfl (.met_all ?_)
    obtain rfl := Option.some.inj h
    simp [h']
  | getQuota type quota =>
    cases type with
    | user | bucket =>
      refine .require rfl fun uid h => .met_all ?_
      simp [h, QuotaTarget.name]
  | setQuota type quota =>
    change Conforms _ _ _ (quota.getArguments type >>= _)
    rw [Quota.getArguments_bind]
    cases type with
    | user | bucket =>
      refine .require rfl fun uid h => .met_all ?_
      simp [h, Quota.addLimits, QuotaTarget.name]
  | createKey key =>
    change Conforms _ _ _ (key.checkOwner false >>= _)
    cases hk : key.keyType.getD .standard with
    | swift =>
      rw [UserKey.checkOwner_swift hk]
      refine .requireForKeyType (UserKey.keyType_eq hk) rfl ?_
      exact .otherKeyType (UserKey.keyType_ne hk (by decide)) (.met_all (by simp))
    | s3 =>
      rw [UserKey.checkOwner_bind_s3 hk]
      refine .otherKeyType (UserKey.keyType_ne hk (by decide)) ?_
      exact .requireForKeyType (UserKey.keyType_eq hk) rfl (.met_all (by simp))
  | removeKey key =>
    change Conforms _ _ _ (key.checkOwner true >>= _)
    cases hk : key.keyType.getD .standard with
    | swift =>
      rw [UserKey.checkOwner_swift hk]
      refine .requireForKeyType (UserKey.keyType_eq hk) rfl ?_
      refine .otherKeyType (UserKey.keyType_ne hk (by decide)) ?_
      exact .otherKeyType (UserKey.keyType_ne hk (by decide)) (.met_all (by simp))
    | s3 =>
      rw [UserKey.checkOwner_bind_s3 hk]
      refine .otherKeyType (UserKey.keyType_ne hk (by decide)) ?_
      refine .requireForKeyType (UserKey.keyType_eq hk) rfl ?_
      exact .requireForKeyType (UserKey.keyType_eq hk) rfl (.met_all (by simp))
  | getUser user =>
    cases hnamed : isGiven user.id || !user.keyList.isEmpty with
    | false =>
      have hargs : user.getArguments = .error (.missingField "user id or access key") := by
        rw [User.getArguments_eq, hnamed]
        rfl
      rw [arguments, hargs]
      exact .unmet (user.isMet_userOrKey.trans hnamed)
    | true =>
      refine .met (user.isMet_userOrKey.trans hnamed) ?_
      rw [arguments, User.getArguments_eq, hnamed, if_pos rfl, forM_require]
      exact .check (user.isMet_eachKey _) rfl (.met_all (by simp))

namespace Operation

theorem present_of_arguments {op : Operation} {args : Arguments}
    (h : op.arguments = .ok args) : args.present = ("format", "json") :: op.row.sent op.input := by
  have hrow := op.arguments_follow_row.result
  split at hrow
  · rw [h] at hrow
    cases hrow
  · obtain ⟨args', hargs, hpresent⟩ := hrow
    obtain rfl : args = args' := Except.ok.inj (h.symm.trans hargs)
    exact hpresent

theorem method_row (op : Operation) : op.row.method = op.method := by
  cases op with
  | getQuota type quota => cases type <;> rfl
  | setQuota type quota => cases type <;> rfl
  | _ => rfl

theorem path_row (op : Operation) : op.row.path = op.resource := by
  cases op with
  | getQuota type quota => cases type <;> rfl
  | setQuota type quota => cases type <;> rfl
  | _ => rfl

end Operation

namespace Client

/-- A request of the client has the method that was asked for, and the resource and the arguments
stand behind the endpoint in its URL. -/
theorem target_of_signedRequest {c : Client} {method : Method} {resource : String}
    {args : Arguments} {time : Instant} {r : Request}
    (h : c.signedRequest method resource args time = .ok r) : r.method = method ∧
      Uri.parse? (AdminUrl.ofParts c.endpoint resource args.encode) = some r.uri := by
  obtain ⟨uri, signed, hp, hsign⟩ := signedRequest_eq_ok_iff.mp h
  obtain ⟨host, -, -, -, -, -, rfl⟩ := Signer.sign_eq_ok_iff.mp hsign
  exact ⟨rfl, hp⟩

theorem sent_perform_of_arguments {op : Operation} {args : Arguments} (h : op.arguments = .ok args)
    (c : Client) (time : Instant) (t : Transport) :
    (c.perform op time t).2.sent =
      t.sent ++ (c.signedRequest op.method op.resource args time).toOption.toList := by
  cases hr : c.signedRequest op.method op.resource args time with
  | error e =>
    have hrequest : c.request (op, time) = .error (.config e) := by
      simp [request, h, hr, Except.mapError]
    rw [perform_eq_of_error hrequest]
    simp [Except.toOption]
  | ok r => exact sent_perform h hr t

/-- Every operation follows its row of the table. When some requirement of the row is not met, the
first such one is reported and nothing is sent. Otherwise the arguments are the format, which comes
first, and the parameters of the row in its order, key by key where they are given for each key; and
if a request can be made of them at all, the one that is sent has the method and the path of the
row. -/
theorem perform_follows_row (c : Client) (op : Operation) (time : Instant) (t : Transport) :
    match op.row.firstUnmet? op.input with
    | some r => op.arguments = .error (r.error op.input) ∧
        c.perform op time t = (.error (.invalidInput (r.error op.input)), t)
    | none => ∃ args, op.arguments = .ok args ∧
        args.present = ("format", "json") :: op.row.sent op.input ∧
        (c.perform op time t).2.sent =
          t.sent ++ (c.signedRequest op.row.method op.row.path args time).toOption.toList ∧
        ∀ r, c.signedRequest op.row.method op.row.path args time = .ok r →
          r.method = op.row.method ∧
          Uri.parse? (AdminUrl.ofParts c.endpoint op.row.path args.encode) = some r.uri := by
  have h := op.arguments_follow_row.result
  rw [← Row.firstUnmet?] at h
  cases hr : op.row.firstUnmet? op.input with
  | some r =>
    rw [hr] at h
    refine ⟨h, perform_eq_of_error ?_⟩
    simp [request, h]
  | none =>
    rw [hr] at h
    obtain ⟨args, hargs, hpresent⟩ := h
    refine ⟨args, hargs, hpresent, ?_, fun r hsigned => target_of_signedRequest hsigned⟩
    rw [op.method_row, op.path_row]
    exact sent_perform_of_arguments hargs c time t

end Client
end GatewayAdmin
