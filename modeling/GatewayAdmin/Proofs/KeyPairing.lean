import GatewayAdmin.Proofs.OperationConformance
import Mathlib.Data.List.Chain

/-! Which secret key belongs to which access key. The keys of a user are sent as one list of
parameters in which absent halves leave no trace, so an access key without a secret key takes the
secret key right behind it, if that has no access key of its own. Nothing else is lost. -/
namespace GatewayAdmin

/-- The halves of a key, as far as they are given. -/
structure KeyHalves where
  access : Option String
  secret : Option String
deriving DecidableEq

namespace KeyHalves

/-- An empty half counts as absent. -/
def ofKey (k : UserKey) : KeyHalves := ⟨k.accessKey.filter (· ≠ ""), k.secretKey.filter (· ≠ "")⟩

def ofKeys (keys : Option (List UserKey)) : List KeyHalves := (keys.getD []).map ofKey

def parameters (h : KeyHalves) : List (String × String) :=
  (h.access.map ("access-key", ·)).toList ++ (h.secret.map ("secret-key", ·)).toList

/-! ### Reading -/

/-- An access key begins a key. A secret key that stands alone behind it belongs to it. -/
def addAccess (access : String) : List KeyHalves → List KeyHalves
  | ⟨none, secret⟩ :: keys => ⟨some access, secret⟩ :: keys
  | keys => ⟨some access, none⟩ :: keys

/-- One parameter, in front of the keys that were read behind it. -/
def readParameter (p : String × String) (keys : List KeyHalves) : List KeyHalves :=
  if p.1 = "access-key" then addAccess p.2 keys
  else if p.1 = "secret-key" then ⟨none, some p.2⟩ :: keys
  else keys

/-- The keys of a list of parameters. -/
def ofParameters (ps : List (String × String)) : List KeyHalves := ps.foldr readParameter []

/-- One key, in front of the keys that are left of those behind it. -/
def joinKey (h : KeyHalves) (keys : List KeyHalves) : List KeyHalves :=
  match h with
  | ⟨none, none⟩ => keys
  | ⟨some access, none⟩ => addAccess access keys
  | h => h :: keys

/-- The keys that are left when each one without a secret key is joined with the one behind it, if
that has no access key. A key without halves is left out. -/
def join (hs : List KeyHalves) : List KeyHalves := hs.foldr joinKey []

theorem foldr_parameters (h : KeyHalves) (keys : List KeyHalves) :
    h.parameters.foldr readParameter keys = joinKey h keys := by
  obtain ⟨access, secret⟩ := h
  cases access with
  | none => cases secret <;> rfl
  | some access => cases secret <;> rfl

theorem foldr_flatMap_parameters (hs : List KeyHalves) :
    (hs.flatMap parameters).foldr readParameter [] = join hs := by
  induction hs with
  | nil => rfl
  | cons h hs ih =>
    rw [List.flatMap_cons, List.foldr_append, ih, foldr_parameters]
    rfl

theorem flatMap_addAccess (access : String) (keys : List KeyHalves) :
    (addAccess access keys).flatMap parameters =
      ("access-key", access) :: keys.flatMap parameters := by
  fun_cases addAccess access keys with
  | case1 secret keys => rfl
  | case2 => rfl

theorem flatMap_joinKey (h : KeyHalves) (keys : List KeyHalves) :
    (joinKey h keys).flatMap parameters = h.parameters ++ keys.flatMap parameters := by
  fun_cases joinKey h keys with
  | case1 => rfl
  | case2 access => exact flatMap_addAccess access keys
  | case3 => rfl

/-- Joining changes nothing of what is sent. -/
theorem flatMap_join (hs : List KeyHalves) :
    (join hs).flatMap parameters = hs.flatMap parameters := by
  induction hs with
  | nil => rfl
  | cons h hs ih =>
    change (joinKey h (join hs)).flatMap parameters = _
    rw [flatMap_joinKey, ih, List.flatMap_cons]

theorem flatMap_parameters_eq_iff {hs ks : List KeyHalves} :
    hs.flatMap parameters = ks.flatMap parameters ↔ join hs = join ks := by
  constructor
  · intro h
    rw [← foldr_flatMap_parameters, h, foldr_flatMap_parameters]
  · intro h
    rw [← flatMap_join, h, flatMap_join]

/-! ### Keys that stay apart -/

def hasHalf (h : KeyHalves) : Bool := h.access.isSome || h.secret.isSome

/-- Every key has a half, and none without a secret key stands right before one without an access
key. -/
structure Apart (hs : List KeyHalves) : Prop where
  given : ∀ h ∈ hs, h.hasHalf = true
  chain : hs.IsChain fun h k => h.secret.isSome ∨ k.access.isSome

theorem join_of_apart {hs : List KeyHalves} (h : Apart hs) : join hs = hs := by
  obtain ⟨hgiven, hchain⟩ := h
  induction hs with
  | nil => rfl
  | cons key hs ih =>
    obtain ⟨hkey, hrest⟩ := List.forall_mem_cons.mp hgiven
    change joinKey key (join hs) = key :: hs
    rw [ih hrest hchain.tail]
    fun_cases joinKey key hs with
    | case1 => exact absurd hkey Bool.false_ne_true
    | case2 access =>
      fun_cases addAccess access hs with
      | case1 secret keys =>
        -- the two keys would be joined
        have hnext := (List.isChain_cons_cons.mp hchain).1
        simp at hnext
      | case2 => rfl
    | case3 => rfl

end KeyHalves

/-! ### What is sent -/

/-- What the parameters of these names send of the values. -/
def ArgumentValues.sentUnder (values : ArgumentValues) (names : List String) :
    List (String × String) :=
  names.flatMap fun name => ((values.written? name).map (name, ·)).toList

/-- Parameters of other names are passed over. -/
theorem KeyHalves.foldr_sentUnder {names : List String} (haccess : "access-key" ∉ names)
    (hsecret : "secret-key" ∉ names) (values : ArgumentValues) (keys : List KeyHalves) :
    (values.sentUnder names).foldr readParameter keys = keys := by
  induction names with
  | nil => rfl
  | cons name names ih =>
    simp only [List.mem_cons, not_or] at haccess hsecret
    rw [ArgumentValues.sentUnder, List.flatMap_cons, List.foldr_append,
      ← ArgumentValues.sentUnder, ih haccess.2 hsecret.2]
    cases values.written? name with
    | none => rfl
    | some value => simp [readParameter, Ne.symm haccess.1, Ne.symm hsecret.1]

namespace User

/-- The operations that send both halves of the keys of a user. -/
def keyedOperations : List (User → Operation) := [.createUser, .modifyUser]

theorem sent_eachKey (u : User) :
    (Parameter.ofEachKey ["access-key", "secret-key"]).sent u.input =
      (KeyHalves.ofKeys u.keys).flatMap KeyHalves.parameters := by
  rw [Parameter.sent, input, KeyHalves.ofKeys, List.flatMap_map, List.flatMap_map]
  refine List.flatMap_congr fun key _ => ?_
  have haccess : key.values.written? "access-key" = (KeyHalves.ofKey key).access := by
    simp [ArgumentValue.written?, KeyHalves.ofKey]
  have hsecret : key.values.written? "secret-key" = (KeyHalves.ofKey key).secret := by
    simp [ArgumentValue.written?, KeyHalves.ofKey]
  rw [List.filterMap_cons, List.filterMap_cons, haccess, hsecret, KeyHalves.parameters]
  cases (KeyHalves.ofKey key).access with
  | none => cases (KeyHalves.ofKey key).secret <;> rfl
  | some access => cases (KeyHalves.ofKey key).secret <;> rfl

theorem sent_of_parameters {row : Row} {before after : List String}
    (h : row.parameters = before.map .given ++
      .ofEachKey ["access-key", "secret-key"] :: after.map .given) (u : User) :
    row.sent u.input = u.values.sentUnder before ++
      (KeyHalves.ofKeys u.keys).flatMap KeyHalves.parameters ++ u.values.sentUnder after := by
  rw [Row.sent, h, List.flatMap_append, List.flatMap_cons, sent_eachKey, List.flatMap_map,
    List.flatMap_map, List.append_assoc]
  rfl

/-- The keys stand between parameters of other names, which do not depend on them. -/
theorem exists_present_eq {op : User → Operation} (hop : op ∈ keyedOperations) (u : User) :
    ∃ before after : List String,
      (∀ names ∈ [before, after], "access-key" ∉ names ∧ "secret-key" ∉ names) ∧
      ∀ keys args, (op { u with keys := keys }).arguments = .ok args →
        args.present = ("format", "json") :: (u.values.sentUnder before ++
          (KeyHalves.ofKeys keys).flatMap KeyHalves.parameters ++ u.values.sentUnder after) := by
  simp only [keyedOperations, List.mem_cons, List.not_mem_nil, or_false] at hop
  rcases hop with rfl | rfl
  · refine ⟨["uid", "display-name", "default-placement", "email", "key-type"],
      ["user-caps", "tenant", "generate-key", "max-buckets", "suspended", "op-mask", "account-id",
        "account-root"], by decide, fun keys args h => ?_⟩
    rw [Operation.present_of_arguments h]
    exact congrArg _ (sent_of_parameters rfl { u with keys := keys })
  · refine ⟨["uid", "display-name", "default-placement", "email", "generate-key"],
      ["key-type", "max-buckets", "suspended", "op-mask", "account-id", "account-root"],
      by decide, fun keys args h => ?_⟩
    rw [Operation.present_of_arguments h]
    exact congrArg _ (sent_of_parameters rfl { u with keys := keys })

end User

open KeyHalves

/-- The keys of a user are read off the parameters of the call, each access key without a secret key
joined with a secret key right behind it that has no access key. Two lists of keys are sent as the
same parameters exactly when they are the same after joining; and if nothing is to be joined in
either, they have the same halves at every place. -/
theorem keys_read_back {op : User → Operation} (hop : op ∈ User.keyedOperations) (u : User)
    {keys keys' : Option (List UserKey)} {args args' : Arguments}
    (h : (op { u with keys := keys }).arguments = .ok args)
    (h' : (op { u with keys := keys' }).arguments = .ok args') :
    ofParameters args.present = join (ofKeys keys) ∧
    (args.present = args'.present ↔ join (ofKeys keys) = join (ofKeys keys')) ∧
    (Apart (ofKeys keys) → Apart (ofKeys keys') → args.present = args'.present →
      ofKeys keys = ofKeys keys') := by
  obtain ⟨before, after, hnames, hpresent⟩ := User.exists_present_eq hop u
  have hiff : args.present = args'.present ↔ join (ofKeys keys) = join (ofKeys keys') := by
    rw [hpresent keys args h, hpresent keys' args' h', List.cons_inj_right,
      List.append_cancel_right_eq, List.append_cancel_left_eq, flatMap_parameters_eq_iff]
  refine ⟨?_, hiff, fun hapart hapart' heq => ?_⟩
  · obtain ⟨hbefore, hbefore'⟩ := hnames before (by simp)
    obtain ⟨hafter, hafter'⟩ := hnames after (by simp)
    rw [hpresent keys args h, ofParameters, List.foldr_cons, List.foldr_append, List.foldr_append,
      foldr_sentUnder hafter hafter', foldr_flatMap_parameters, foldr_sentUnder hbefore hbefore']
    rfl
  · rw [← join_of_apart hapart, hiff.mp heq, join_of_apart hapart']

/-- A lone access key, a complete key and a lone secret key, with the missing halves absent in one
list and empty in the other. -/
theorem keys_read_back_partial :
    let user : User := { id := some "u", displayName := some "n" }
    let keys : List UserKey := [{ accessKey := some "A" },
      { accessKey := some "B", secretKey := some "S" }, { secretKey := some "T" }]
    let keys' : List UserKey := [{ accessKey := some "A", secretKey := some "", user := some "v" },
      { accessKey := some "B", secretKey := some "S" },
      { accessKey := some "", secretKey := some "T" }]
    Operation.createUser ∈ User.keyedOperations ∧
    Apart (ofKeys (some keys)) ∧ Apart (ofKeys (some keys')) ∧
    ∃ args args', (Operation.createUser { user with keys := some keys }).arguments = .ok args ∧
      (Operation.createUser { user with keys := some keys' }).arguments = .ok args' ∧
      ofParameters args.present = [⟨some "A", none⟩, ⟨some "B", some "S"⟩, ⟨none, some "T"⟩] ∧
      args.present = args'.present ∧ ofKeys (some keys) = ofKeys (some keys') := by
  intro user keys keys'
  have hmem : Operation.createUser ∈ User.keyedOperations := by simp [User.keyedOperations]
  have hapart : Apart (ofKeys (some keys)) := ⟨by decide, by decide⟩
  have hapart' : Apart (ofKeys (some keys')) := ⟨by decide, by decide⟩
  obtain ⟨args, h⟩ : ∃ args,
    (Operation.createUser { user with keys := some keys }).arguments = .ok args := ⟨_, rfl⟩
  obtain ⟨args', h'⟩ : ∃ args,
    (Operation.createUser { user with keys := some keys' }).arguments = .ok args := ⟨_, rfl⟩
  obtain ⟨hread, hsame, happart⟩ := keys_read_back hmem user h h'
  have hpresent : args.present = args'.present := hsame.mpr (by decide)
  exact ⟨hmem, hapart, hapart', args, args', h, h', hread, hpresent,
    happart hapart hapart' hpresent⟩

/-- An access key in front of a secret key is sent as the one key of both. -/
theorem lone_halves_sent_as_one_key :
    let user : User := { id := some "u", displayName := some "n" }
    let apart : List UserKey := [{ accessKey := some "A" }, { secretKey := some "S" }]
    let whole : List UserKey := [{ accessKey := some "A", secretKey := some "S" }]
    (∀ key ∈ apart ++ whole, isGiven key.accessKey || isGiven key.secretKey) ∧
    ∀ op ∈ User.keyedOperations, ∃ args args',
      (op { user with keys := some apart }).arguments = .ok args ∧
      (op { user with keys := some whole }).arguments = .ok args' ∧
      args.present = args'.present ∧ apart.length ≠ whole.length := by
  intro user apart whole
  refine ⟨by decide, fun op hop => ?_⟩
  simp only [User.keyedOperations, List.mem_cons, List.not_mem_nil, or_false] at hop
  rcases hop with rfl | rfl
  · exact ⟨_, _, rfl, rfl, by decide, by decide⟩
  · exact ⟨_, _, rfl, rfl, by decide, by decide⟩

end GatewayAdmin
