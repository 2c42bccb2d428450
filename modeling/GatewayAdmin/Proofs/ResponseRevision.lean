import GatewayAdmin.Proofs.RecordRevision
import GatewayAdmin.Proofs.ResponseType

/-! What other gateways may do to a reply without changing what is read: the members of every object
that is a record may stand in any order, and there may be more of them. -/
namespace GatewayAdmin

open Json

/-- No two fields of a record update the same part of it. -/
theorem RecordType.orderless_of_mem_all : ∀ T ∈ all, T.schema.Orderless := by
  simp only [all, List.forall_mem_cons, List.not_mem_nil, false_imp_iff, implies_true, and_true]
  repeat' apply And.intro
  all_goals
    refine ⟨by decide, ?_⟩
    repeat' first
      | exact .nil
      | exact List.forall_mem_nil _
      | refine .cons ?_ ?_
      | refine List.forall_mem_cons.mpr ⟨Field.commutes_optional fun _ _ _ => rfl, ?_⟩

/-- The second draft is the first one with members of its records in another order, or with more
of them. What is no record, free values above all, stays as it is. -/
inductive Revision : {α : Type} → Codec α → Draft → Draft → Prop
  | refl {α : Type} (c : Codec α) (d : Draft) : Revision c d d
  | trans {α : Type} {c : Codec α} {d d' d'' : Draft} (h : Revision c d d')
      (h' : Revision c d' d'') : Revision c d d''
  | reorder {T : RecordType} (hT : T ∈ RecordType.all)
      {members members' : List (StringText × Draft)} (h : members.Perm members') :
      Revision T.schema.codec (.object members none) (.object members' none)
  | insert {T : RecordType} (hT : T ∈ RecordType.all) {before after : List (StringText × Draft)}
      {m : StringText × Draft} {name : String} (hname : m.1.read = .ok name)
      (hnew : name ∉ T.schema.fields.map Field.name) :
      Revision T.schema.codec (.object (before ++ after) none) (.object (before ++ m :: after) none)
  | member {T : RecordType} (hT : T ∈ RecordType.all) {α : Type} {name : String} {codec : Codec α}
      {get : T.Carrier → Option α} {set : T.Carrier → Option α → T.Carrier}
      (hf : .optional name codec get set ∈ T.schema.fields)
      {before after : List (StringText × Draft)} {key : StringText} (hkey : key.read = .ok name)
      {d d' : Draft} (h : Revision codec d d') :
      Revision T.schema.codec (.object (before ++ (key, d) :: after) none)
        (.object (before ++ (key, d') :: after) none)
  | position {T : RecordType} (hT : T ∈ RecordType.all) {α : Type} {name : String} {codec : Codec α}
      {get : T.Carrier → Option α} {set : T.Carrier → Option α → T.Carrier}
      {earlier later : List (Field T.Carrier)}
      (hf : T.schema.fields = earlier ++ .optional name codec get set :: later)
      {before after : List Draft} (hlength : before.length = earlier.length)
      {d d' : Draft} (h : Revision codec d d') :
      Revision T.schema.codec (.array (before ++ d :: after) none)
        (.array (before ++ d' :: after) none)
  | item {α : Type} {codec : Codec α} {before after : List Draft} {d d' : Draft}
      (h : Revision codec d d') :
      Revision (.list codec) (.array (before ++ d :: after) none)
        (.array (before ++ d' :: after) none)

section
variable {α : Type} {codec : Codec α} {d d' : Draft}

theorem forall₂_replace {R : Draft → α → Prop} {before after : List Draft} {values : List α}
    (hR : ∀ v, R d v → R d' v) (h : List.Forall₂ R (before ++ d :: after) values) :
    List.Forall₂ R (before ++ d' :: after) values := by
  induction before generalizing values with
  | nil =>
    obtain ⟨v, vs, hv, hvs, rfl⟩ := List.forall₂_cons_left_iff.mp h
    exact .cons (hR v hv) hvs
  | cons b before ih =>
    obtain ⟨v, vs, hv, hvs, rfl⟩ := List.forall₂_cons_left_iff.mp h
    exact .cons hv (ih hvs)

/-- The value of a field that may be absent is read from another text of it just as well. -/
theorem Field.read_optional_of_revision {ρ : Type} {name : String} {get : ρ → Option α}
    {set : ρ → Option α → ρ} (hnull : d = .null ↔ d' = .null)
    (hread : ∀ depth x, codec.read depth d = .ok x → codec.read depth d' = .ok x)
    (depth : Nat) (r r' : ρ) (h : (optional name codec get set).read depth d r = .ok r') :
    (optional name codec get set).read depth d' r = .ok r' := by
  obtain ⟨v, hv, rfl⟩ := read_optional_eq_ok_iff.mp h
  refine read_optional_eq_ok_iff.mpr ⟨v, Codec.readOptional_eq_ok_iff.mpr ?_, rfl⟩
  rcases Codec.readOptional_eq_ok_iff.mp hv with ⟨hd, hv⟩ | ⟨hd, a, ha, hv⟩
  · exact .inl ⟨hnull.mp hd, hv⟩
  · exact .inr ⟨fun hd' => hd (hnull.mpr hd'), a, hread depth a ha, hv⟩

/-- What is read from a draft is read from every revision of it. -/
theorem Revision.read (h : Revision codec d d') :
    (d = .null ↔ d' = .null) ∧
      ∀ depth x, codec.read depth d = .ok x → codec.read depth d' = .ok x := by
  induction h with
  | refl c d => exact ⟨Iff.rfl, fun _ _ h => h⟩
  | trans _ _ ih ih' =>
    exact ⟨ih.1.trans ih'.1, fun depth x hx => ih'.2 depth x (ih.2 depth x hx)⟩
  | @reorder T hT _ _ hperm =>
    have hs := RecordType.orderless_of_mem_all T hT
    exact ⟨by simp, fun depth x hx => Schema.read_object_perm hs hperm hx⟩
  | @insert T _ _ _ m name hname hnew =>
    have hfield : T.schema.field? name = none := by
      refine List.find?_eq_none.mpr fun f hf heq => hnew ?_
      exact List.mem_map.mpr ⟨f, hf, by simpa using heq⟩
    exact ⟨by simp, fun depth x hx => Schema.read_object_insert hname hfield hx⟩
  | @member T hT _ _ _ _ _ hf _ _ _ hkey _ _ _ ih =>
    have hfield := Schema.field?_eq_some (RecordType.orderless_of_mem_all T hT).distinct hf
    exact ⟨by simp, fun depth x hx => Schema.read_object_replace hkey hfield
      (Field.read_optional_of_revision ih.1 ih.2) hx⟩
  | @position T _ _ _ _ _ _ earlier later hf _ _ hlength _ _ _ ih =>
    refine ⟨by simp, fun depth x hx => ?_⟩
    cases depth with
    | zero => simp [Schema.codec, Schema.read] at hx
    | succ depth =>
      change Schema.readPositions depth none T.schema.fields _ _ = _ at hx ⊢
      rw [hf] at hx ⊢
      exact Schema.readPositions_replace (Field.read_optional_of_revision ih.1 ih.2 depth)
        hlength hx
  | @item _ codec _ _ _ _ _ ih =>
    refine ⟨by simp, fun depth x hx => ?_⟩
    cases depth with
    | zero => simp [Codec.list, Codec.readList] at hx
    | succ depth =>
      obtain ⟨hitems, -⟩ := readItems_eq_ok_iff.mp hx
      exact readItems_eq_ok_iff.mpr ⟨forall₂_replace (ih.2 depth) hitems, rfl⟩

theorem Revision.decode {text text' : List UInt8} {x : α} (h : Revision codec d d')
    (ht : Spells d text) (ht' : Spells d' text') (hx : codec.decode text = .ok x) :
    codec.decode text' = .ok x := by
  obtain ⟨hdocument, -⟩ := document_eq_iff.mpr ht
  obtain ⟨hdocument', -⟩ := document_eq_iff.mpr ht'
  obtain ⟨read, hread, hx⟩ := readText_eq_ok_iff.mp hx
  obtain rfl := (Document.mk.inj (hdocument.symm.trans hread)).1
  exact readText_eq_ok_iff.mpr ⟨d', hdocument', h.read.2 maxDepth x hx⟩

end

/-! ### Fields that only requests have -/

theorem Subuser.ensures_isReply : codec.Ensures IsReply := by
  refine Schema.ensures rfl ?_
  iterate 2
    refine List.forall_mem_cons.mpr ⟨Field.preserves_of_set fun s v (h : s = _) => ?_, ?_⟩
    · rw [h, IsReply]
  simp

theorem UserKey.ensures_isReply : codec.Ensures IsReply := by
  refine Schema.ensures rfl ?_
  iterate 3
    refine List.forall_mem_cons.mpr ⟨Field.preserves_of_set fun k v (h : k = _) => ?_, ?_⟩
    · rw [h, IsReply]
  simp

theorem Bucket.ensures_isReply : codec.Ensures IsReply := by
  refine Schema.ensures rfl ?_
  iterate 21
    refine List.forall_mem_cons.mpr ⟨Field.preserves_of_set fun b v (h : b = _) => ?_, ?_⟩
    · rw [h, IsReply]
  simp

/-- Only its subusers and its keys have such fields in their turn. -/
theorem User.ensures_isReply : codec.Ensures IsReply := by
  refine Schema.ensures ⟨rfl, by simp [schema], by simp [schema]⟩ ?_
  iterate 5
    refine List.forall_mem_cons.mpr ⟨Field.preserves_of_set fun u v h => ⟨?_, h.2⟩, ?_⟩
    · rw [h.1]
  refine List.forall_mem_cons.mpr ⟨Field.preserves_optional Subuser.ensures_isReply.list
    fun u v h hv => ⟨?_, forall_mem_getD_iff.mpr hv, h.2.2⟩, ?_⟩
  · rw [h.1]
  refine List.forall_mem_cons.mpr ⟨Field.preserves_optional UserKey.ensures_isReply.list
    fun u v h hv => ⟨?_, h.2.1, forall_mem_getD_iff.mpr hv⟩, ?_⟩
  · rw [h.1]
  iterate 14
    refine List.forall_mem_cons.mpr ⟨Field.preserves_of_set fun u v h => ⟨?_, h.2⟩, ?_⟩
    · rw [h.1]
  simp

namespace ResponseType

/-- In what is read the fields that only requests have are at their defaults. -/
def Settled (T : ResponseType) : Prop := T.codec.Ensures T.IsReply

theorem settled_ofCodec {α : Type} (c : Codec α) : (ofCodec c).Settled := c.ensures_true

theorem Settled.list {T : ResponseType} (h : T.Settled) : T.list.Settled := Codec.Ensures.list h

theorem settled_of_mem_all : ∀ T ∈ all, T.Settled := by
  have huser : user.Settled := User.ensures_isReply
  have hsubuser : subuser.Settled := Subuser.ensures_isReply
  have hkey : userKey.Settled := UserKey.ensures_isReply
  have hbucket : bucket.Settled := Bucket.ensures_isReply
  have hpolicy : policy.Settled := Policy.codec.ensures_true
  have haccess : accessList.Settled := AccessList.codec.ensures_true
  simp [all, huser, hsubuser, hkey, hbucket, hpolicy, haccess, settled_ofCodec, Settled.list]

/-- The fields of records of replies that only requests have, as a gateway would write them. -/
def requestNames : List (RecordType × List String) := [
  (⟨User, User.schema⟩, ["key_type", "tenant", "generate_key", "purge_data", "generate_stat",
    "user_caps"]),
  (⟨Subuser, Subuser.schema⟩, ["generate_secret", "generate_access_key", "access_key",
    "secret_key", "secret", "purge_keys", "key_type"]),
  (⟨UserKey, UserKey.schema⟩, ["uid", "subuser", "key_type", "generate_key"]),
  (⟨Bucket, Bucket.schema⟩, ["user_id", "generate_stat", "purge_objects"])]

theorem requestNames_new : ∀ r ∈ requestNames,
    r.1 ∈ RecordType.all ∧ ∀ name ∈ r.2, name ∉ r.1.schema.fields.map Field.name := by
  simp only [requestNames, List.forall_mem_cons, List.not_mem_nil, false_imp_iff, implies_true,
    and_true]
  refine ⟨⟨by simp [RecordType.all], by decide⟩, ⟨by simp [RecordType.all], by decide⟩,
    ⟨by simp [RecordType.all], by decide⟩, by simp [RecordType.all], by decide⟩

end ResponseType

/-- Texts of replies that are revisions of each other are read as the same value. In what is read
the fields that only requests have are at their defaults: members of their names are among those
that a revision may add, with any value. -/
theorem decode_revised_responses :
    (∀ T ∈ ResponseType.all, ∀ (d d' : Draft) (text text' : List UInt8) (x : T.Carrier),
      Revision T.codec d d' → Spells d text → Spells d' text' →
      T.codec.decode text = .ok x → T.codec.decode text' = .ok x) ∧
    (∀ T ∈ ResponseType.all, ∀ (text : List UInt8) (x : T.Carrier),
      T.codec.decode text = .ok x → T.IsReply x) ∧
    ∀ r ∈ ResponseType.requestNames, ∀ name ∈ r.2, ∀ (key : StringText), key.read = .ok name →
      ∀ (before after : List (StringText × Draft)) (value : Draft),
        Revision r.1.schema.codec (.object (before ++ after) none)
          (.object (before ++ (key, value) :: after) none) := by
  refine ⟨fun T _ d d' text text' x h ht ht' hx => h.decode ht ht' hx,
    fun T hT text x hx => ?_, fun r hr name hname key hkey before after value => ?_⟩
  · obtain ⟨d, -, hd⟩ := readText_eq_ok_iff.mp hx
    exact ResponseType.settled_of_mem_all T hT maxDepth d x hd
  · obtain ⟨hT, hnew⟩ := ResponseType.requestNames_new r hr
    exact .insert hT hkey (hnew name hname)

/-- A user with a key, from a gateway that also says which tenant the user is of and whose the key
is, and that writes the members in another order. -/
theorem decode_revised_responses_extended :
    let v : Value := .object [("user_id", .string "a"),
      ("keys", .array [.object [("access_key", .string "k")]])]
    let v' : Value := .object [("tenant", .integer (10 ^ 30)),
      ("keys", .array [.object [("uid", .array [.null]), ("access_key", .string "k")]]),
      ("user_id", .string "a")]
    let u : User := { id := some "a", keys := some [{ accessKey := some "k" }] }
    Revision User.codec v.draft v'.draft ∧
    Spells v.draft (Text.utf8 v.compact) ∧ Spells v'.draft (Text.utf8 v'.compact) ∧
    User.codec.decode (Text.utf8 v.compact) = .ok u ∧
    User.codec.decode (Text.utf8 v'.compact) = .ok u ∧ u.IsReply := by
  intro v v' u
  have hrequest := decode_revised_responses.2.2
  have huser : (⟨User, User.schema⟩ : RecordType) ∈ RecordType.all := List.mem_cons_self
  have hkeys : Revision (.list UserKey.codec)
      (.array [.object [(.ofString "access_key", .string (.ofString "k"))] none] none)
      (.array [.object [(.ofString "uid", .array [.null] none),
        (.ofString "access_key", .string (.ofString "k"))] none] none) :=
    @Revision.item _ _ [] [] _ _ (hrequest _ (.tail _ (.tail _ (.head _))) "uid" (by simp) _
      (StringText.read_ofString _) [] _ _)
  have hfield : .optional "keys" (.list UserKey.codec) User.keys (fun r v => { r with keys := v }) ∈
      User.schema.fields := by simp [User.schema]
  have hrevision : Revision User.codec v.draft v'.draft :=
    .trans (@Revision.member _ huser _ _ _ _ _ hfield [_] [] _ (StringText.read_ofString _) _ _
        hkeys)
      (.trans (hrequest _ (.head _) "tenant" (by simp) _ (StringText.read_ofString _) [] _
          (Value.integer (10 ^ 30)).draft)
        (.reorder huser (.cons _ (.swap _ _ _))))
  have hstring (s : String) : (Value.string s).Integral := .string s
  have hkey : (Value.array [.object [("access_key", .string "k")]]).Integral :=
    .array (by simpa using .object (by simpa using hstring "k"))
  have hv : v.Integral := .object (by simpa using ⟨hstring "a", hkey⟩)
  have hkey' : (Value.array
      [.object [("uid", .array [.null]), ("access_key", .string "k")]]).Integral :=
    .array (by simpa using .object (by simpa using ⟨.array (by simpa using .null), hstring "k"⟩))
  have hv' : v'.Integral := .object (by simpa using ⟨.integer _, hkey', hstring "a"⟩)
  have hx : User.codec.decode (Text.utf8 v.compact) = .ok u := by decide +kernel
  have hx' := decode_revised_responses.1 .user List.mem_cons_self _ _ _ _ u hrevision
    hv.spells_compact hv'.spells_compact hx
  exact ⟨hrevision, hv.spells_compact, hv'.spells_compact, hx, hx',
    decode_revised_responses.2.1 .user List.mem_cons_self _ u hx⟩

/-- A half of a surrogate pair is the name of no field, but it is no text either, and a member of
such a name is not passed over. -/
theorem decode_name_of_no_text :
    let member : StringText × Draft := (⟨[.unit 0xD800], none⟩, .number ⟨false, [0], none, none⟩)
    (∀ name, member.1.read ≠ .ok name) ∧
    Spells (.object [] none) (Text.utf8 "\x7b\x7d") ∧
    Spells (.object [member] none) (Text.utf8 "\x7b\"\\ud800\":0\x7d") ∧
    User.codec.decode (Text.utf8 "\x7b\x7d") = .ok {} ∧
    User.codec.decode (Text.utf8 "\x7b\"\\ud800\":0\x7d") = .error .malformed := by
  intro member
  have hread : member.1.read = .error .malformed := by decide
  refine ⟨fun name h => ?_, document_eq_iff.mp ⟨rfl, .object (by simp) (by simp)⟩,
    document_eq_iff.mp ⟨rfl, .object (by simp [member]) ?_⟩, by decide, by decide⟩
  · cases hread.symm.trans h
  · simpa [member] using .number _

end GatewayAdmin
