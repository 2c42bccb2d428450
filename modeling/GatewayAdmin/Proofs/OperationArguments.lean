import GatewayAdmin.Operation
import Mathlib.Data.List.Basic

/-! What the argument lists of all operations have in common. A list is begun by `Arguments.admin`
and only ever grows at its end, so every call asks for JSON before it asks for anything else. -/
namespace GatewayAdmin

namespace Validated

/-- What a validation returns, if it returns anything, has the property. -/
def Ensures {α : Type} (x : Validated α) (P : α → Prop) : Prop := ∀ a, x = .ok a → P a

variable {α β : Type} {P : β → Prop}

theorem ensures_pure {b : β} (h : P b) : Ensures (pure b) P := by
  rintro _ ⟨⟩
  exact h

theorem Ensures.bind {x : Validated α} {f : α → Validated β} {Q : α → Prop} (hx : Ensures x Q)
    (hf : ∀ a, Q a → Ensures (f a) P) : Ensures (x >>= f) P := by
  intro b hb
  cases x with
  | error e => cases hb
  | ok a => exact hf a (hx a rfl) b hb

/-- What is checked on the way does not matter for a property of the result. -/
theorem ensures_bind {x : Validated α} {f : α → Validated β} (h : ∀ a, Ensures (f a) P) :
    Ensures (x >>= f) P :=
  Ensures.bind (Q := fun _ => True) (fun _ _ => trivial) fun a _ => h a

end Validated

namespace Arguments

@[simp] theorem pairs_admin : admin.pairs = [("format", some "json")] := rfl

@[simp] theorem pairs_add {α : Type} [ArgumentText α] (q : Arguments) (name : String) (value : α) :
    (q.add name value).pairs = q.pairs ++ [(name, ArgumentText.text? value)] := rfl

/-- Arguments that are added for one item after the other stand behind the list in the order of
the items. -/
theorem pairs_foldl {κ : Type} {f : Arguments → κ → Arguments}
    {g : κ → List (String × Option String)} (hf : ∀ q k, (f q k).pairs = q.pairs ++ g k)
    (ks : List κ) (q : Arguments) : (ks.foldl f q).pairs = q.pairs ++ ks.flatMap g := by
  induction ks generalizing q with
  | nil => simp
  | cons k ks ih => rw [List.foldl_cons, ih, hf, List.flatMap_cons, List.append_assoc]

/-- The list begins as every admin list does. -/
def IsAdmin (q : Arguments) : Prop := ∃ rest, q.pairs = ("format", some "json") :: rest

/-- The format is the first of the arguments that are sent. -/
theorem IsAdmin.present_eq {q : Arguments} (h : q.IsAdmin) :
    ∃ rest, q.present = ("format", "json") :: rest := by
  obtain ⟨rest, hq⟩ := h
  exact ⟨rest.filterMap fun p => p.2.map (p.1, ·), by simp [present, hq]⟩

end Arguments

open Validated Arguments

namespace User

@[simp] theorem pairs_addKeyPairs (u : User) (q : Arguments) :
    (u.addKeyPairs q).pairs = q.pairs ++ u.keyList.flatMap fun key =>
      [("access-key", ArgumentText.text? key.accessKey),
        ("secret-key", ArgumentText.text? key.secretKey)] :=
  pairs_foldl (fun q key => by simp) u.keyList q

@[simp] theorem pairs_addAccessKeys (keys : List UserKey) (q : Arguments) :
    (keys.foldl (fun q key => q.add "access-key" key.accessKey) q).pairs =
      q.pairs ++ keys.flatMap fun key => [("access-key", ArgumentText.text? key.accessKey)] :=
  pairs_foldl (fun q key => by simp) keys q

theorem getArguments_isAdmin (u : User) : Ensures u.getArguments IsAdmin := by
  unfold getArguments
  split
  · exact ensures_bind fun _ => ensures_bind fun _ => ensures_pure (by simp [IsAdmin])
  · exact ensures_bind fun _ => ensures_pure (by simp [IsAdmin])

end User

/-- However its requirements are checked, every operation starts from the admin list. -/
theorem Operation.arguments_isAdmin (op : Operation) : Ensures op.arguments IsAdmin := by
  cases op with
  | getUser user => exact user.getArguments_isAdmin
  | listUsers | getInfo | listBuckets | listBucketRecords | getUsage _ | trimUsage _
  | createAccount _ =>
    -- nothing is required of these
    exact ensures_pure (by simp [IsAdmin, Bucket.listArguments, UsageQuery.getArguments,
      UsageQuery.trimArguments, UsageQuery.rangeArguments, Account.createArguments,
      Account.addFields])
  | removeUser _ | modifyUser _ | createKey _ | removeKey _ | listUserBuckets _
  | listUserBucketRecords _ | getBucket _ | getBucketPolicy _ | removeBucket _ | linkBucket _
  | unlinkBucket _ | checkBucketIndex _ | getQuota _ _ | getAccount _ | removeAccount _
  | modifyAccount _ =>
    exact ensures_bind fun _ => ensures_pure (by simp [IsAdmin, Bucket.listArguments,
      Account.addFields])
  | createUser _ | removeSubuser _ _ | addCaps _ _ | removeCaps _ _
  | setIndividualBucketQuota _ =>
    exact ensures_bind fun _ => ensures_bind fun _ => ensures_pure (by simp [IsAdmin,
      Quota.addLimits])
  | createSubuser _ _ | modifySubuser _ _ =>
    exact ensures_bind fun _ => ensures_bind fun _ => ensures_bind fun _ =>
      ensures_pure (by simp [IsAdmin])
  | setQuota type quota =>
    have hget : Ensures (quota.getArguments type) IsAdmin :=
      ensures_bind fun _ => ensures_pure (by simp [IsAdmin])
    refine hget.bind fun args hargs => ensures_pure ?_
    obtain ⟨rest, hrest⟩ := hargs
    simp [IsAdmin, Quota.addLimits, hrest]

end GatewayAdmin
