import GatewayAdmin.Config
import GatewayAdmin.Proofs.RecordCodec
import GatewayAdmin.Proofs.ResponseType

/-! Records of replies are restored from their texts, each field from the member of its name. Fields
that only requests have are not in a text, so they come back at their defaults, and a time comes
back as the instant that its text shows. -/
namespace GatewayAdmin

open Codec Json

section
variable {ρ : Type} {s : Schema ρ} {x y r : ρ} {fields : List (Field ρ)}

/-- A field whose codec is that of a record. -/
theorem Refills.record {σ : Type} {name : String} {part : Schema σ} {get : ρ → Option σ}
    {set : ρ → Option σ → ρ} (hpart : ∀ a ∈ get x, part.codec.Restores a)
    (hnone : set r none = r) (h : Refills x y fields (set r (get x))) :
    Refills x y (.optional name part.codec get set :: fields) r :=
  .optional hpart (neverNull_schema part) hnone h

/-- A field with a list of records, or of free values. -/
theorem Refills.list {α : Type} {name : String} {item : Codec α} {get : ρ → Option (List α)}
    {set : ρ → Option (List α) → ρ} (hitem : ∀ xs ∈ get x, ∀ a ∈ xs, item.Restores a)
    (hnone : set r none = r) (h : Refills x y fields (set r (get x))) :
    Refills x y (.optional name (.list item) get set :: fields) r :=
  .optional (fun xs hxs => restores_list (hitem xs hxs)) (neverNull_list item) hnone h

end

/-! ### Quotas, accounts and what a cluster tells -/

theorem Quota.restores (q : Quota) : Quota.codec.Restores q := by
  refine Schema.readsAs (by decide) ?_
  iterate 7 refine .optional (by simp) (by simp) rfl ?_
  exact .nil rfl

theorem Account.restores (a : Account) : Account.codec.Restores a := by
  refine Schema.readsAs (by decide) ?_
  iterate 9 refine .optional (by simp) (by simp) rfl ?_
  iterate 2 refine .record (fun q _ => q.restores) rfl ?_
  exact .nil rfl

theorem StorageBackend.restores (b : StorageBackend) : StorageBackend.codec.Restores b := by
  refine Schema.readsAs (by decide) ?_
  iterate 2 refine .optional (by simp) (by simp) rfl ?_
  exact .nil rfl

theorem ClusterInfo.restores (i : ClusterInfo) : ClusterInfo.codec.Restores i := by
  refine Schema.readsAs (by decide) ?_
  refine .list (fun _ _ b _ => b.restores) rfl ?_
  exact .nil rfl

theorem Info.restores (i : Info) : Info.codec.Restores i := by
  refine Schema.readsAs (by decide) ?_
  refine .record (fun c _ => c.restores) rfl ?_
  exact .nil rfl

/-! ### Users -/

theorem Subuser.restores {s : Subuser} (h : s.IsReply) : Subuser.codec.Restores s := by
  refine Schema.readsAs (by decide) ?_
  iterate 2 refine .optional (by simp) (by simp) rfl ?_
  exact .nil h.symm

theorem SwiftKey.restores (k : SwiftKey) : SwiftKey.codec.Restores k := by
  refine Schema.readsAs (by decide) ?_
  iterate 2 refine .optional (by simp) (by simp) rfl ?_
  exact .nil rfl

theorem Capability.restores (c : Capability) : Capability.codec.Restores c := by
  refine Schema.readsAs (by decide) ?_
  iterate 2 refine .optional (by simp) (by simp) rfl ?_
  exact .nil rfl

theorem UserKey.restores {k : UserKey} (h : k.IsReply) : UserKey.codec.Restores k := by
  refine Schema.readsAs (by decide) ?_
  iterate 3 refine .optional (by simp) (by simp) rfl ?_
  exact .nil h.symm

theorem UserStats.restores (s : UserStats) : UserStats.codec.Restores s := by
  refine Schema.readsAs (by decide) ?_
  iterate 3 refine .optional (by simp) (by simp) rfl ?_
  exact .nil rfl

theorem User.restores {u : User} (hreply : u.IsReply) (hfree : ∀ v ∈ u.freeValues, v.Exact) :
    User.codec.Restores u := by
  obtain ⟨hself, hsubusers, hkeys⟩ := hreply
  rw [forall_mem_getD_iff] at hsubusers hkeys
  simp only [freeValues, List.mem_append, or_imp, forall_and] at hfree
  obtain ⟨⟨htags, htemp⟩, hmfa⟩ := hfree
  have hfree {vs? : Option (List Value)} (h : ∀ v ∈ vs?.getD [], v.Exact) :
      ∀ vs ∈ vs?, ∀ v ∈ vs, Codec.free.Restores v :=
    fun vs hvs v hv => restores_free (forall_mem_getD_iff.mp h vs hvs v hv)
  refine Schema.readsAs (by decide) ?_
  iterate 5 refine .optional (by simp) (by simp) rfl ?_
  refine .list (fun ss hss s hs => Subuser.restores (hsubusers ss hss s hs)) rfl ?_
  refine .list (fun ks hks k hk => UserKey.restores (hkeys ks hks k hk)) rfl ?_
  refine .list (fun _ _ k _ => k.restores) rfl ?_
  refine .list (fun _ _ c _ => c.restores) rfl ?_
  iterate 3 refine .optional (by simp) (by simp) rfl ?_
  refine .list (hfree htags) rfl ?_
  iterate 2 refine .record (fun q _ => q.restores) rfl ?_
  refine .list (hfree htemp) rfl ?_
  refine .optional (by simp) (by simp) rfl ?_
  refine .list (hfree hmfa) rfl ?_
  refine .record (fun s _ => s.restores) rfl ?_
  iterate 2 refine .optional (by simp) (by simp) rfl ?_
  exact .nil hself.symm

/-! ### Buckets -/

theorem ExplicitPlacement.restores (p : ExplicitPlacement) :
    ExplicitPlacement.codec.Restores p := by
  refine Schema.readsAs (by decide) ?_
  iterate 3 refine .optional (by simp) (by simp) rfl ?_
  exact .nil rfl

theorem StorageUse.restores (u : StorageUse) : StorageUse.codec.Restores u := by
  refine Schema.readsAs (by decide) ?_
  iterate 7 refine .optional (by simp) (by simp) rfl ?_
  exact .nil rfl

theorem BucketUsage.restores (u : BucketUsage) : BucketUsage.codec.Restores u := by
  refine Schema.readsAs (by decide) ?_
  iterate 2 refine .record (fun s _ => s.restores) rfl ?_
  exact .nil rfl

/-- The time that it was made at is the one field that can change. -/
theorem Bucket.readsAs {b : Bucket} (h : b.IsReply) : Bucket.codec.ReadsAs b b.shown := by
  refine Schema.readsAs (by decide) ?_
  iterate 5 refine .optional (by simp) (by simp) rfl ?_
  refine .record (fun p _ => p.restores) rfl ?_
  iterate 11 refine .optional (by simp) (by simp) rfl ?_
  refine .readAs (fun t _ => readsAs_instant t) (by simp) rfl ?_
  refine .optional (by simp) (by simp) rfl ?_
  refine .record (fun u _ => u.restores) rfl ?_
  refine .record (fun q _ => q.restores) rfl ?_
  exact .nil (congrArg Bucket.shown h.symm)

theorem AclUser.restores (u : AclUser) : AclUser.codec.Restores u := by
  refine Schema.readsAs (by decide) ?_
  iterate 2 refine .optional (by simp) (by simp) rfl ?_
  exact .nil rfl

theorem GrantType.restores (t : GrantType) : GrantType.codec.Restores t := by
  refine Schema.readsAs (by decide) ?_
  refine .optional (by simp) (by simp) rfl ?_
  exact .nil rfl

theorem GrantPermission.restores (p : GrantPermission) : GrantPermission.codec.Restores p := by
  refine Schema.readsAs (by decide) ?_
  refine .optional (by simp) (by simp) rfl ?_
  exact .nil rfl

theorem Grant.restores (g : Grant) : Grant.codec.Restores g := by
  refine Schema.readsAs (by decide) ?_
  refine .record (fun t _ => t.restores) rfl ?_
  iterate 2 refine .optional (by simp) (by simp) rfl ?_
  refine .record (fun p _ => p.restores) rfl ?_
  iterate 3 refine .optional (by simp) (by simp) rfl ?_
  exact .nil rfl

theorem GrantEntry.restores (e : GrantEntry) : GrantEntry.codec.Restores e := by
  refine Schema.readsAs (by decide) ?_
  refine .optional (by simp) (by simp) rfl ?_
  refine .record (fun g _ => g.restores) rfl ?_
  exact .nil rfl

theorem AccessList.restores {l : AccessList} (hfree : ∀ v ∈ l.freeValues, v.Exact) :
    AccessList.codec.Restores l := by
  refine Schema.readsAs (by decide) ?_
  refine .list (fun _ _ u _ => u.restores) rfl ?_
  refine .list (fun vs hvs v hv => restores_free (forall_mem_getD_iff.mp hfree vs hvs v hv)) rfl ?_
  refine .list (fun _ _ e _ => e.restores) rfl ?_
  exact .nil rfl

theorem PolicyOwner.restores (o : PolicyOwner) : PolicyOwner.codec.Restores o := by
  refine Schema.readsAs (by decide) ?_
  iterate 2 refine .optional (by simp) (by simp) rfl ?_
  exact .nil rfl

theorem Policy.restores {p : Policy} (hfree : ∀ v ∈ p.freeValues, v.Exact) :
    Policy.codec.Restores p := by
  have hacl : ∀ l ∈ p.acl, AccessList.codec.Restores l := by
    intro l hl
    rw [freeValues, Option.mem_def.mp hl] at hfree
    exact AccessList.restores hfree
  refine Schema.readsAs (by decide) ?_
  refine .record hacl rfl ?_
  refine .record (fun o _ => o.restores) rfl ?_
  exact .nil rfl

theorem IndexHeader.restores (i : IndexHeader) : IndexHeader.codec.Restores i := by
  refine Schema.readsAs (by decide) ?_
  refine .record (fun u _ => u.restores) rfl ?_
  exact .nil rfl

theorem IndexComparison.restores (c : IndexComparison) : IndexComparison.codec.Restores c := by
  refine Schema.readsAs (by decide) ?_
  iterate 2 refine .record (fun i _ => i.restores) rfl ?_
  exact .nil rfl

theorem IndexReport.restores (r : IndexReport) : IndexReport.codec.Restores r := by
  refine Schema.readsAs (by decide) ?_
  refine .list (fun _ _ s _ => restores_text s) rfl ?_
  refine .record (fun c _ => c.restores) rfl ?_
  exact .nil rfl

/-! ### The usage log -/

theorem UsageCategory.restores (c : UsageCategory) : UsageCategory.codec.Restores c := by
  refine Schema.readsAs (by decide) ?_
  iterate 5 refine .optional (by simp) (by simp) rfl ?_
  exact .nil rfl

theorem UsageTotal.restores (t : UsageTotal) : UsageTotal.codec.Restores t := by
  refine Schema.readsAs (by decide) ?_
  iterate 4 refine .optional (by simp) (by simp) rfl ?_
  exact .nil rfl

theorem UsageBucket.restores (b : UsageBucket) : UsageBucket.codec.Restores b := by
  refine Schema.readsAs (by decide) ?_
  iterate 4 refine .optional (by simp) (by simp) rfl ?_
  refine .list (fun _ _ c _ => c.restores) rfl ?_
  exact .nil rfl

theorem UsageEntry.restores (e : UsageEntry) : UsageEntry.codec.Restores e := by
  refine Schema.readsAs (by decide) ?_
  refine .optional (by simp) (by simp) rfl ?_
  refine .list (fun _ _ b _ => b.restores) rfl ?_
  exact .nil rfl

theorem UsageSummary.restores (s : UsageSummary) : UsageSummary.codec.Restores s := by
  refine Schema.readsAs (by decide) ?_
  refine .optional (by simp) (by simp) rfl ?_
  refine .list (fun _ _ c _ => c.restores) rfl ?_
  refine .record (fun t _ => t.restores) rfl ?_
  exact .nil rfl

theorem Usage.restores (u : Usage) : Usage.codec.Restores u := by
  refine Schema.readsAs (by decide) ?_
  refine .list (fun _ _ e _ => e.restores) rfl ?_
  refine .list (fun _ _ s _ => s.restores) rfl ?_
  exact .nil rfl

/-- The secret key is read but never written. -/
theorem Config.readsAs (c : Config) : Config.codec.ReadsAs c { c with secretKey := "" } := by
  refine Schema.readsAs (by decide) ?_
  iterate 2 refine .required (by simp) ?_
  refine .unwritten ?_
  iterate 4 refine .required (by simp) ?_
  exact .nil rfl

/-! ### All of them -/

namespace ResponseType

/-- Such values of this type are restored, their times as they are shown. -/
def Restorable (T : ResponseType) : Prop :=
  ∀ x, T.IsReply x → (∀ v ∈ T.freeValues x, v.Exact) → T.codec.ReadsAs x (T.shown x)

theorem restorable_ofCodec {α : Type} {c : Codec α} (h : ∀ x, c.Restores x) :
    (ofCodec c).Restorable := fun x _ _ => h x

theorem Restorable.list {T : ResponseType} (h : T.Restorable) : T.list.Restorable :=
  fun _ hreply hfree => readsAs_list fun x hx =>
    h x (hreply x hx) fun v hv => hfree v (List.mem_flatMap_of_mem hx hv)

theorem restorable_of_mem_all : ∀ T ∈ all, T.Restorable := by
  have huser : user.Restorable := fun _ hreply hfree => User.restores hreply hfree
  have hsubuser : subuser.Restorable := fun _ hreply _ => Subuser.restores hreply
  have hkey : userKey.Restorable := fun _ hreply _ => UserKey.restores hreply
  have hcap : (ofCodec Capability.codec).Restorable := restorable_ofCodec Capability.restores
  have hbucket : bucket.Restorable := fun _ hreply _ => Bucket.readsAs hreply
  have hpolicy : policy.Restorable := fun _ _ hfree => Policy.restores hfree
  have haccess : accessList.Restorable := fun _ _ hfree => AccessList.restores hfree
  have htext : (ofCodec Codec.text).Restorable := restorable_ofCodec restores_text
  simp only [all, List.forall_mem_cons, List.not_mem_nil, false_imp_iff, implies_true, and_true]
  exact ⟨huser, hsubuser, restorable_ofCodec SwiftKey.restores, hkey, hcap,
    restorable_ofCodec UserStats.restores, restorable_ofCodec Quota.restores,
    restorable_ofCodec Account.restores,
    hbucket, restorable_ofCodec ExplicitPlacement.restores,
    restorable_ofCodec StorageUse.restores, restorable_ofCodec BucketUsage.restores,
    hpolicy, haccess, restorable_ofCodec AclUser.restores, restorable_ofCodec GrantEntry.restores,
    restorable_ofCodec Grant.restores, restorable_ofCodec GrantType.restores,
    restorable_ofCodec GrantPermission.restores, restorable_ofCodec PolicyOwner.restores,
    restorable_ofCodec IndexReport.restores, restorable_ofCodec IndexComparison.restores,
    restorable_ofCodec IndexHeader.restores,
    restorable_ofCodec Usage.restores, restorable_ofCodec UsageEntry.restores,
    restorable_ofCodec UsageBucket.restores, restorable_ofCodec UsageCategory.restores,
    restorable_ofCodec UsageSummary.restores, restorable_ofCodec UsageTotal.restores,
    restorable_ofCodec Info.restores, restorable_ofCodec ClusterInfo.restores,
    restorable_ofCodec StorageBackend.restores,
    htext.list, hbucket.list, hkey.list, hcap.list⟩

end ResponseType

/-- What is written for a value of a type of replies is read as that value, when the fields that
only requests have are at their defaults, the free values in it can be kept in full and no more
containers stand around each other than are read. A time is read as the instant that its text shows,
which is another one only where nanoseconds go on into a next second that is no leap second. A
configuration loses its secret key and nothing else. -/
theorem decode_encode_responses :
    (∀ T ∈ ResponseType.all, ∀ x : T.Carrier, T.IsReply x → (∀ v ∈ T.freeValues x, v.Exact) →
      (T.codec.write x).height ≤ 127 →
      T.codec.decode (Text.utf8 (T.codec.encode x)) = .ok (T.shown x)) ∧
    (∀ t : Instant, t.shown = t ↔ t.nanos < 1000000000 ∨ t.seconds % 60 = 59) ∧
    ∀ c : Config, Config.codec.decode (Text.utf8 (Config.codec.encode c)) =
      .ok { c with secretKey := "" } := by
  refine ⟨fun T hT x hreply hfree hdepth => ?_, fun t => Instant.shown_eq_self_iff, fun c => ?_⟩
  · exact (ResponseType.restorable_of_mem_all T hT x hreply hfree).decode hdepth
  · have hdepth : (Config.codec.write c).height = 1 := rfl
    exact c.readsAs.decode (hdepth ▸ by decide)

/-- A user with a key, with characters that are escaped and with an object among its free values,
and a bucket that was made in a leap second before the year 0. -/
theorem decode_encode_responses_escaped :
    let u : User :=
      { id := some "a\"\x01\nö", keys := some [{ accessKey := some "k" }],
        mfaIds := some [.object [("", .array [.integer (-9223372036854775808)]), ("ö", .null)]] }
    let b : Bucket :=
      { name := some "b", numShards := some 18446744073709551615,
        creationTime := some ⟨-62198755201, 1500000000, by decide, by decide⟩ }
    u.IsReply ∧ (∀ v ∈ u.freeValues, v.Exact) ∧ (User.codec.write u).height ≤ 127 ∧
    User.codec.decode (Text.utf8 (User.codec.encode u)) = .ok u ∧
    b.IsReply ∧ (Bucket.codec.write b).height ≤ 127 ∧
    Bucket.codec.decode (Text.utf8 (Bucket.codec.encode b)) = .ok b := by
  intro u b
  have hu : u.IsReply := ⟨rfl, by simp [u], by simp [u, UserKey.IsReply]⟩
  have hfree : ∀ v ∈ u.freeValues, v.Exact := by
    have hmembers : ∀ m ∈ [("", Value.array [.integer (-9223372036854775808)]), ("ö", .null)],
        m.2.Exact := by
      have hitem : (Value.array [.integer (-9223372036854775808)]).Exact :=
        .array (by simpa using .integer ⟨by decide, by decide⟩)
      simpa using ⟨hitem, .null⟩
    have hobject : Value.Exact (.object [("", .array [.integer (-9223372036854775808)]),
        ("ö", .null)]) := .object (by decide) hmembers
    simpa [u, User.freeValues] using hobject
  have hdepth : (User.codec.write u).height ≤ 127 := by decide
  have hdecode := decode_encode_responses.1 .user List.mem_cons_self u hu hfree hdepth
  have hdepth' : (Bucket.codec.write b).height ≤ 127 := by decide
  have hmem : ResponseType.bucket ∈ ResponseType.all := by simp [ResponseType.all]
  have hdecode' := decode_encode_responses.1 .bucket hmem b rfl (by simp [ResponseType.bucket])
    hdepth'
  have hshown : b.shown = b := by
    have hleap : Instant.shown ⟨-62198755201, 1500000000, by decide, by decide⟩ =
        ⟨-62198755201, 1500000000, by decide, by decide⟩ := Instant.shown_of_isProper (.inr rfl)
    simp [b, Bucket.shown, hleap]
  exact ⟨hu, hfree, hdepth, hdecode, rfl, hdepth', hshown ▸ hdecode'⟩

/-- Noon with a second and a half of nanoseconds comes back as a second and a half after noon. An
integer too long for 64 bits is kept as the floating-point number `3e+23`, and comes back as the one
below it. -/
theorem decode_encode_loses :
    let late : Bucket := { creationTime := some ⟨1440936000, 1500000000, by decide, by decide⟩ }
    let next : Bucket := { creationTime := some ⟨1440936001, 500000000, by decide, by decide⟩ }
    let u : User := { mfaIds := some [.number (.float 4958396687196483698)] }
    let u' : User := { mfaIds := some [.number (.float 4958396687196483697)] }
    (late.IsReply ∧ Bucket.codec.decode (Text.utf8 (Bucket.codec.encode late)) = .ok next ∧
      next ≠ late) ∧
    User.codec.decode (Text.utf8 "\x7b\"mfa_ids\":[300000000000000000000000]\x7d") = .ok u ∧
    u.IsReply ∧ User.codec.encode u = "\x7b\"mfa_ids\":[3e+23]\x7d" ∧
    User.codec.decode (Text.utf8 (User.codec.encode u)) = .ok u' ∧ u' ≠ u := by
  intro late next u u'
  have hlate : Bucket.codec.decode (Text.utf8 (Bucket.codec.encode late)) = .ok next := by
    decide +kernel
  have hread : User.codec.decode
      (Text.utf8 "\x7b\"mfa_ids\":[300000000000000000000000]\x7d") = .ok u := by decide +kernel
  have hencode : User.codec.encode u = "\x7b\"mfa_ids\":[3e+23]\x7d" := by decide +kernel
  have hdecode : User.codec.decode (Text.utf8 (User.codec.encode u)) = .ok u' := by
    rw [hencode]
    decide +kernel
  have hreply : u.IsReply := ⟨rfl, by simp [u], by simp [u]⟩
  exact ⟨⟨rfl, hlate, by decide +kernel⟩, hread, hreply, hencode, hdecode, by decide +kernel⟩

end GatewayAdmin
