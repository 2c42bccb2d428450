import GatewayAdmin.Proofs.JsonKept
import GatewayAdmin.Proofs.ResponseRevision
import GatewayAdmin.Proofs.ResponseRoundTrip

/-! How deep replies nest. The records of a reply stand around each other in a fixed way, seven
containers at most, and a free value in one of them was read to what depth they had left. So what
was read is written no deeper than it may be read again, and its times are those that are shown. -/
namespace GatewayAdmin

open Json

/-! ### Records and lists -/

section
variable {ρ α : Type}

/-- What is written for the field nests at most this deep. -/
def Field.Within (f : Field ρ) (r : ρ) (n : Nat) : Prop := ∀ v ∈ f.write r, v.height ≤ n

@[simp] theorem Field.within_optional_iff {name : String} {codec : Codec α} {get : ρ → Option α}
    {set : ρ → Option α → ρ} {r : ρ} {n : Nat} :
    (optional name codec get set).Within r n ↔ ∀ a ∈ get r, (codec.write a).height ≤ n := by
  simp [Within, optional]

/-- A record stands around what is written for its fields. -/
theorem Schema.height_write_le_iff {s : Schema ρ} {r : ρ} {n : Nat} :
    (s.codec.write r).height ≤ n + 1 ↔ ∀ f ∈ s.fields, f.Within r n := by
  change heightOfMembers (writtenMembers s.fields r) + 1 ≤ n + 1 ↔ _
  rw [Nat.add_le_add_iff_right, heightOfMembers_le_iff]
  constructor
  · intro h f hf v hv
    have hmem : (f.name, v) ∈ writtenMembers s.fields r :=
      List.mem_filterMap.mpr ⟨f, hf, by rw [Option.mem_def.mp hv]; rfl⟩
    exact h _ hmem
  · intro h m hm
    obtain ⟨f, hf, hm⟩ := List.mem_filterMap.mp hm
    obtain ⟨v, hv, rfl⟩ := Option.map_eq_some_iff.mp hm
    exact h f hf v hv

namespace Codec

@[simp] theorem height_write_list_le_iff {item : Codec α} {xs : List α} {n : Nat} :
    ((list item).write xs).height ≤ n + 1 ↔ ∀ x ∈ xs, (item.write x).height ≤ n := by
  change heightOfItems (xs.map item.write) + 1 ≤ n + 1 ↔ _
  rw [Nat.add_le_add_iff_right, heightOfItems_le_iff, List.forall_mem_map]

@[simp] theorem height_write_text (s : String) : (text.write s).height = 0 := rfl

@[simp] theorem height_write_flag (b : Bool) : (flag.write b).height = 0 := rfl

@[simp] theorem height_write_int32 (n : Int32) : (int32.write n).height = 0 := rfl

@[simp] theorem height_write_int64 (n : Int64) : (int64.write n).height = 0 := rfl

@[simp] theorem height_write_uint64 (n : UInt64) : (uint64.write n).height = 0 := rfl

@[simp] theorem height_write_instant (t : Instant) : (instant.write t).height = 0 := rfl

end Codec
end

theorem Quota.height_write_le (q : Quota) : (Quota.codec.write q).height ≤ 1 :=
  Schema.height_write_le_iff.mpr (by simp [schema])

theorem Account.height_write_le (a : Account) : (Account.codec.write a).height ≤ 2 :=
  Schema.height_write_le_iff.mpr (by simp [schema, Quota.height_write_le])

theorem StorageBackend.height_write_le (b : StorageBackend) :
    (StorageBackend.codec.write b).height ≤ 1 :=
  Schema.height_write_le_iff.mpr (by simp [schema])

theorem ClusterInfo.height_write_le (i : ClusterInfo) : (ClusterInfo.codec.write i).height ≤ 3 :=
  Schema.height_write_le_iff.mpr (by simp [schema, StorageBackend.height_write_le])

theorem Info.height_write_le (i : Info) : (Info.codec.write i).height ≤ 4 :=
  Schema.height_write_le_iff.mpr (by simp [schema, ClusterInfo.height_write_le])

/-! ### Users -/

theorem Subuser.height_write_le (s : Subuser) : (Subuser.codec.write s).height ≤ 1 :=
  Schema.height_write_le_iff.mpr (by simp [schema])

theorem SwiftKey.height_write_le (k : SwiftKey) : (SwiftKey.codec.write k).height ≤ 1 :=
  Schema.height_write_le_iff.mpr (by simp [schema])

theorem Capability.height_write_le (c : Capability) : (Capability.codec.write c).height ≤ 1 :=
  Schema.height_write_le_iff.mpr (by simp [schema])

theorem UserKey.height_write_le (k : UserKey) : (UserKey.codec.write k).height ≤ 1 :=
  Schema.height_write_le_iff.mpr (by simp [schema])

theorem UserStats.height_write_le (s : UserStats) : (UserStats.codec.write s).height ≤ 1 :=
  Schema.height_write_le_iff.mpr (by simp [schema])

theorem User.forall_mem_freeValues_iff {u : User} {P : Value → Prop} :
    (∀ v ∈ u.freeValues, P v) ↔ (∀ v ∈ u.placementTags.getD [], P v) ∧
      (∀ v ∈ u.tempUrlKeys.getD [], P v) ∧ ∀ v ∈ u.mfaIds.getD [], P v := by
  simp only [freeValues, List.mem_append, or_imp, forall_and, and_assoc]

/-- The free values of a user stand in lists, and so do its records. -/
theorem User.height_write_le {u : User} {n : Nat} (hn : 1 ≤ n)
    (hfree : ∀ v ∈ u.freeValues, v.height ≤ n) : (User.codec.write u).height ≤ n + 2 := by
  obtain ⟨htags, htemp, hmfa⟩ := forall_mem_freeValues_iff.mp hfree
  rw [forall_mem_getD_iff] at htags htemp hmfa
  have hsubuser (s : Subuser) : (Subuser.codec.write s).height ≤ n := s.height_write_le.trans hn
  have hkey (k : UserKey) : (UserKey.codec.write k).height ≤ n := k.height_write_le.trans hn
  have hswift (k : SwiftKey) : (SwiftKey.codec.write k).height ≤ n := k.height_write_le.trans hn
  have hcap (c : Capability) : (Capability.codec.write c).height ≤ n := c.height_write_le.trans hn
  have hquota (q : Quota) : (Quota.codec.write q).height ≤ n + 1 :=
    q.height_write_le.trans (by omega)
  have hstats (s : UserStats) : (UserStats.codec.write s).height ≤ n + 1 :=
    s.height_write_le.trans (by omega)
  refine Schema.height_write_le_iff.mpr ?_
  simpa [schema, hsubuser, hkey, hswift, hcap, hquota, hstats, Codec.free] using
    ⟨htags, htemp, hmfa⟩

/-! ### Buckets -/

theorem ExplicitPlacement.height_write_le (p : ExplicitPlacement) :
    (ExplicitPlacement.codec.write p).height ≤ 1 :=
  Schema.height_write_le_iff.mpr (by simp [schema])

theorem StorageUse.height_write_le (u : StorageUse) : (StorageUse.codec.write u).height ≤ 1 :=
  Schema.height_write_le_iff.mpr (by simp [schema])

theorem BucketUsage.height_write_le (u : BucketUsage) : (BucketUsage.codec.write u).height ≤ 2 :=
  Schema.height_write_le_iff.mpr (by simp [schema, StorageUse.height_write_le])

theorem Bucket.height_write_le (b : Bucket) : (Bucket.codec.write b).height ≤ 3 := by
  have hplacement (p : ExplicitPlacement) : (ExplicitPlacement.codec.write p).height ≤ 2 :=
    p.height_write_le.trans (by omega)
  have hquota (q : Quota) : (Quota.codec.write q).height ≤ 2 := q.height_write_le.trans (by omega)
  exact Schema.height_write_le_iff.mpr
    (by simp [schema, hplacement, hquota, BucketUsage.height_write_le])

theorem AclUser.height_write_le (u : AclUser) : (AclUser.codec.write u).height ≤ 1 :=
  Schema.height_write_le_iff.mpr (by simp [schema])

theorem GrantType.height_write_le (t : GrantType) : (GrantType.codec.write t).height ≤ 1 :=
  Schema.height_write_le_iff.mpr (by simp [schema])

theorem GrantPermission.height_write_le (p : GrantPermission) :
    (GrantPermission.codec.write p).height ≤ 1 :=
  Schema.height_write_le_iff.mpr (by simp [schema])

theorem Grant.height_write_le (g : Grant) : (Grant.codec.write g).height ≤ 2 :=
  Schema.height_write_le_iff.mpr
    (by simp [schema, GrantType.height_write_le, GrantPermission.height_write_le])

theorem GrantEntry.height_write_le (e : GrantEntry) : (GrantEntry.codec.write e).height ≤ 3 :=
  Schema.height_write_le_iff.mpr (by simp [schema, Grant.height_write_le])

theorem AccessList.height_write_le {l : AccessList} {n : Nat} (hn : 3 ≤ n)
    (hfree : ∀ v ∈ l.freeValues, v.height ≤ n) : (AccessList.codec.write l).height ≤ n + 2 := by
  rw [freeValues, forall_mem_getD_iff] at hfree
  have huser (u : AclUser) : (AclUser.codec.write u).height ≤ n :=
    u.height_write_le.trans (by omega)
  have hentry (e : GrantEntry) : (GrantEntry.codec.write e).height ≤ n := e.height_write_le.trans hn
  exact Schema.height_write_le_iff.mpr (by simpa [schema, huser, hentry, Codec.free] using hfree)

theorem PolicyOwner.height_write_le (o : PolicyOwner) : (PolicyOwner.codec.write o).height ≤ 1 :=
  Schema.height_write_le_iff.mpr (by simp [schema])

theorem Policy.height_write_le {p : Policy} {n : Nat} (hn : 3 ≤ n)
    (hfree : ∀ v ∈ p.freeValues, v.height ≤ n) : (Policy.codec.write p).height ≤ n + 3 := by
  have hacl : ∀ l ∈ p.acl, (AccessList.codec.write l).height ≤ n + 2 := by
    intro l hl
    rw [freeValues, Option.mem_def.mp hl] at hfree
    exact AccessList.height_write_le hn hfree
  have howner (o : PolicyOwner) : (PolicyOwner.codec.write o).height ≤ n + 2 :=
    o.height_write_le.trans (by omega)
  exact Schema.height_write_le_iff.mpr (by simpa [schema, howner] using hacl)

theorem IndexHeader.height_write_le (i : IndexHeader) : (IndexHeader.codec.write i).height ≤ 3 :=
  Schema.height_write_le_iff.mpr (by simp [schema, BucketUsage.height_write_le])

theorem IndexComparison.height_write_le (c : IndexComparison) :
    (IndexComparison.codec.write c).height ≤ 4 :=
  Schema.height_write_le_iff.mpr (by simp [schema, IndexHeader.height_write_le])

theorem IndexReport.height_write_le (r : IndexReport) : (IndexReport.codec.write r).height ≤ 5 :=
  Schema.height_write_le_iff.mpr (by simp [schema, IndexComparison.height_write_le])

/-! ### The usage log -/

theorem UsageCategory.height_write_le (c : UsageCategory) :
    (UsageCategory.codec.write c).height ≤ 1 :=
  Schema.height_write_le_iff.mpr (by simp [schema])

theorem UsageTotal.height_write_le (t : UsageTotal) : (UsageTotal.codec.write t).height ≤ 1 :=
  Schema.height_write_le_iff.mpr (by simp [schema])

theorem UsageBucket.height_write_le (b : UsageBucket) : (UsageBucket.codec.write b).height ≤ 3 :=
  Schema.height_write_le_iff.mpr (by simp [schema, UsageCategory.height_write_le])

theorem UsageEntry.height_write_le (e : UsageEntry) : (UsageEntry.codec.write e).height ≤ 5 :=
  Schema.height_write_le_iff.mpr (by simp [schema, UsageBucket.height_write_le])

theorem UsageSummary.height_write_le (s : UsageSummary) :
    (UsageSummary.codec.write s).height ≤ 3 := by
  have htotal (t : UsageTotal) : (UsageTotal.codec.write t).height ≤ 2 :=
    t.height_write_le.trans (by omega)
  exact Schema.height_write_le_iff.mpr (by simp [schema, UsageCategory.height_write_le, htotal])

theorem Usage.height_write_le (u : Usage) : (Usage.codec.write u).height ≤ 7 := by
  have hsummary (s : UsageSummary) : (UsageSummary.codec.write s).height ≤ 5 :=
    s.height_write_le.trans (by omega)
  exact Schema.height_write_le_iff.mpr (by simp [schema, UsageEntry.height_write_le, hsummary])

/-! ### What free values are read to -/

theorem Codec.free_ensuresAt (depth : Nat) : free.EnsuresAt depth fun v => v.Kept depth :=
  fun _ _ h => Draft.kept_of_readValue h

theorem AccessList.ensuresAt_kept (n : Nat) :
    codec.EnsuresAt (n + 2) fun l => ∀ v ∈ l.freeValues, v.Kept n := by
  have hgroups := (Codec.free_ensuresAt n).list
  refine Schema.ensuresAt (by simp [schema, freeValues]) ?_
  refine List.forall_mem_cons.mpr ⟨Field.preservesAt_of_set fun l v h => h, ?_⟩
  refine List.forall_mem_cons.mpr ⟨Field.preservesAt_optional hgroups
    fun l v _ hv => forall_mem_getD_iff.mpr hv, ?_⟩
  refine List.forall_mem_cons.mpr ⟨Field.preservesAt_of_set fun l v h => h, ?_⟩
  simp

theorem Policy.ensuresAt_kept (n : Nat) :
    codec.EnsuresAt (n + 3) fun p => ∀ v ∈ p.freeValues, v.Kept n := by
  have hacl := AccessList.ensuresAt_kept n
  refine Schema.ensuresAt (by simp [schema, freeValues]) ?_
  refine List.forall_mem_cons.mpr ⟨Field.preservesAt_optional hacl fun p v _ hv => ?_, ?_⟩
  · cases v with
    | none => simp [freeValues]
    | some l => exact hv l rfl
  refine List.forall_mem_cons.mpr ⟨Field.preservesAt_of_set fun p v h => h, ?_⟩
  simp

theorem User.ensuresAt_kept (n : Nat) :
    codec.EnsuresAt (n + 2) fun u => ∀ v ∈ u.freeValues, v.Kept n := by
  have hfree := (Codec.free_ensuresAt n).list
  simp only [forall_mem_freeValues_iff]
  refine Schema.ensuresAt (by simp [schema]) ?_
  iterate 12
    refine List.forall_mem_cons.mpr ⟨Field.preservesAt_of_set fun u v h => h, ?_⟩
  refine List.forall_mem_cons.mpr ⟨Field.preservesAt_optional hfree
    fun u v h hv => ⟨forall_mem_getD_iff.mpr hv, h.2⟩, ?_⟩
  iterate 2
    refine List.forall_mem_cons.mpr ⟨Field.preservesAt_of_set fun u v h => h, ?_⟩
  refine List.forall_mem_cons.mpr ⟨Field.preservesAt_optional hfree
    fun u v h hv => ⟨h.1, forall_mem_getD_iff.mpr hv, h.2.2⟩, ?_⟩
  refine List.forall_mem_cons.mpr ⟨Field.preservesAt_of_set fun u v h => h, ?_⟩
  refine List.forall_mem_cons.mpr ⟨Field.preservesAt_optional hfree
    fun u v h hv => ⟨h.1, h.2.1, forall_mem_getD_iff.mpr hv⟩, ?_⟩
  iterate 3
    refine List.forall_mem_cons.mpr ⟨Field.preservesAt_of_set fun u v h => h, ?_⟩
  simp

/-! ### What times are read to -/

theorem Codec.instant_ensures_shown : instant.Ensures fun t => t.shown = t := by
  intro depth d t h
  obtain ⟨s, -, ht⟩ := bind_eq_ok_iff.mp h
  cases hread : Timestamp.read? s with
  | none => simp [hread] at ht
  | some t' =>
    obtain rfl : t' = t := by simpa [hread] using ht
    exact Instant.shown_of_isProper (Timestamp.isProper_of_read? hread)

theorem Bucket.ensures_shown : codec.Ensures fun b => b.shown = b := by
  have htimes : codec.Ensures fun b => ∀ t ∈ b.creationTime, t.shown = t := by
    refine Schema.ensures (by simp [schema]) ?_
    iterate 17
      refine List.forall_mem_cons.mpr ⟨Field.preserves_of_set fun b v h => h, ?_⟩
    refine List.forall_mem_cons.mpr
      ⟨Field.preserves_optional Codec.instant_ensures_shown fun b v _ hv => hv, ?_⟩
    iterate 3
      refine List.forall_mem_cons.mpr ⟨Field.preserves_of_set fun b v h => h, ?_⟩
    simp
  intro depth d b hb
  have htime : b.creationTime.map Instant.shown = b.creationTime :=
    (Option.map_congr (htimes depth d b hb)).trans Option.map_id'
  rw [shown, htime]

/-! ### All of them -/

namespace ResponseType

/-- What is read to the depth of a text is written no deeper, and its free values can be kept in
full if their numbers are integers. -/
def Rereadable (T : ResponseType) : Prop :=
  T.codec.EnsuresAt maxDepth fun x =>
    (T.codec.write x).height ≤ maxDepth ∧ ∀ v ∈ T.freeValues x, v.Integral → v.Exact

/-- A type without free values, whose values all nest a few levels. -/
structure Shallow (T : ResponseType) (n : Nat) : Prop where
  height : ∀ x, (T.codec.write x).height ≤ n
  free : ∀ x, T.freeValues x = []

theorem shallow_ofCodec {α : Type} {c : Codec α} {n : Nat} (h : ∀ x, (c.write x).height ≤ n) :
    (ofCodec c).Shallow n := ⟨h, fun _ => rfl⟩

theorem Shallow.list {T : ResponseType} {n : Nat} (h : T.Shallow n) : T.list.Shallow (n + 1) := by
  constructor
  · intro xs
    exact Codec.height_write_list_le_iff.mpr fun x _ => h.height x
  · intro xs
    exact List.flatMap_eq_nil_iff.mpr fun x _ => h.free x

theorem Shallow.rereadable {T : ResponseType} {n : Nat} (h : T.Shallow n) (hn : n ≤ maxDepth) :
    T.Rereadable := by
  intro d x _
  refine ⟨(h.height x).trans hn, fun v hv => ?_⟩
  rw [h.free x] at hv
  exact absurd hv List.not_mem_nil

theorem rereadable_user : user.Rereadable := by
  intro d u hu
  have hkept := User.ensuresAt_kept 125 d u hu
  exact ⟨User.height_write_le (by omega) fun v hv => (hkept v hv).height,
    fun v hv => (hkept v hv).exact⟩

theorem rereadable_accessList : accessList.Rereadable := by
  intro d l hl
  have hkept := AccessList.ensuresAt_kept 125 d l hl
  exact ⟨AccessList.height_write_le (by omega) fun v hv => (hkept v hv).height,
    fun v hv => (hkept v hv).exact⟩

theorem rereadable_policy : policy.Rereadable := by
  intro d p hp
  have hkept := Policy.ensuresAt_kept 124 d p hp
  exact ⟨Policy.height_write_le (by omega) fun v hv => (hkept v hv).height,
    fun v hv => (hkept v hv).exact⟩

theorem rereadable_of_mem_all : ∀ T ∈ all, T.Rereadable := by
  have hcodec {α : Type} {c : Codec α} {n : Nat} (h : ∀ x, (c.write x).height ≤ n)
      (hn : n ≤ maxDepth := by decide) : (ofCodec c).Rereadable :=
    (shallow_ofCodec h).rereadable hn
  have hsubuser : subuser.Shallow 1 := ⟨Subuser.height_write_le, fun _ => rfl⟩
  have hkey : userKey.Shallow 1 := ⟨UserKey.height_write_le, fun _ => rfl⟩
  have hbucket : bucket.Shallow 3 := ⟨Bucket.height_write_le, fun _ => rfl⟩
  have hcap : (ofCodec Capability.codec).Shallow 1 := shallow_ofCodec Capability.height_write_le
  have htext : (ofCodec Codec.text).Shallow 0 := shallow_ofCodec fun _ => le_rfl
  simp only [all, List.forall_mem_cons, List.not_mem_nil, false_imp_iff, implies_true, and_true]
  exact ⟨rereadable_user, hsubuser.rereadable (by decide), hcodec SwiftKey.height_write_le,
    hkey.rereadable (by decide), hcap.rereadable (by decide), hcodec UserStats.height_write_le,
    hcodec Quota.height_write_le, hcodec Account.height_write_le,
    hbucket.rereadable (by decide), hcodec ExplicitPlacement.height_write_le,
    hcodec StorageUse.height_write_le, hcodec BucketUsage.height_write_le,
    rereadable_policy, rereadable_accessList, hcodec AclUser.height_write_le,
    hcodec GrantEntry.height_write_le, hcodec Grant.height_write_le,
    hcodec GrantType.height_write_le, hcodec GrantPermission.height_write_le,
    hcodec PolicyOwner.height_write_le, hcodec IndexReport.height_write_le,
    hcodec IndexComparison.height_write_le, hcodec IndexHeader.height_write_le,
    hcodec Usage.height_write_le, hcodec UsageEntry.height_write_le,
    hcodec UsageBucket.height_write_le, hcodec UsageCategory.height_write_le,
    hcodec UsageSummary.height_write_le, hcodec UsageTotal.height_write_le,
    hcodec Info.height_write_le, hcodec ClusterInfo.height_write_le,
    hcodec StorageBackend.height_write_le,
    htext.list.rereadable (by decide), hbucket.list.rereadable (by decide),
    hkey.list.rereadable (by decide), hcap.list.rereadable (by decide)⟩

/-- In what is read every time is as it is written. -/
def ShownAsRead (T : ResponseType) : Prop := T.codec.Ensures fun x => T.shown x = x

theorem ShownAsRead.list {T : ResponseType} (h : T.ShownAsRead) : T.list.ShownAsRead := by
  intro depth d (xs : List T.Carrier) hxs
  have hitems : ∀ x ∈ xs, T.shown x = x := Codec.Ensures.list h depth d xs hxs
  exact (List.map_congr_left hitems).trans (List.map_id' xs)

/-- Buckets are the only records with a time. -/
theorem shownAsRead_of_mem_all : ∀ T ∈ all, T.ShownAsRead := by
  have hcodec {α : Type} (c : Codec α) : (ofCodec c).ShownAsRead := fun _ _ _ _ => rfl
  have huser : user.ShownAsRead := fun _ _ _ _ => rfl
  have hsubuser : subuser.ShownAsRead := fun _ _ _ _ => rfl
  have hkey : userKey.ShownAsRead := fun _ _ _ _ => rfl
  have hbucket : bucket.ShownAsRead := Bucket.ensures_shown
  have hpolicy : policy.ShownAsRead := fun _ _ _ _ => rfl
  have haccess : accessList.ShownAsRead := fun _ _ _ _ => rfl
  simp [all, huser, hsubuser, hkey, hbucket, hpolicy, haccess, hcodec, ShownAsRead.list]

/-- What was read is read again from any text of what is written for it, if the numbers in its free
values are integers. -/
theorem decode_of_spells {T : ResponseType} (hT : T ∈ all) {body : List UInt8} {x : T.Carrier}
    (hx : T.codec.decode body = .ok x) (hfree : ∀ v ∈ T.freeValues x, v.Integral) :
    (T.codec.write x).Integral ∧
      ∀ text, Spells (T.codec.write x).draft text → T.codec.decode text = .ok x := by
  obtain ⟨d, -, hd⟩ := readText_eq_ok_iff.mp hx
  obtain ⟨hheight, hexact⟩ := rereadable_of_mem_all T hT d x hd
  have hreply : T.IsReply x := settled_of_mem_all T hT maxDepth d x hd
  have hshown : T.shown x = x := shownAsRead_of_mem_all T hT maxDepth d x hd
  have hrestores : T.codec.ReadsAs x (T.shown x) :=
    restorable_of_mem_all T hT x hreply fun v hv => hexact v hv (hfree v hv)
  rw [hshown] at hrestores
  exact ⟨hrestores.integral, fun _ htext => hrestores.decode_of_spells hheight htext⟩

end ResponseType
end GatewayAdmin
