import GatewayAdmin.Proofs.CommandRuns
import GatewayAdmin.Proofs.JsonFault

/-! Replies that are no object. A record is read from an array as well: its items are the values of
the first fields, in the order of the fields, and the fields behind them are left at their defaults.
Any other text is refused, and so is any other item in a list of records. -/
namespace GatewayAdmin

open Json Text

/-! ### Records by position -/

/-- Each item is the value of its field; there may be fewer items than fields. -/
inductive ByPosition {ρ : Type} (depth : Nat) : List (Field ρ) → List Draft → ρ → ρ → Prop
  | nil (fields : List (Field ρ)) (r : ρ) : ByPosition depth fields [] r r
  | cons {f : Field ρ} {fields : List (Field ρ)} {d : Draft} {items : List Draft} {r r' x : ρ}
      (hd : f.read depth d r = .ok r') (h : ByPosition depth fields items r' x) :
      ByPosition depth (f :: fields) (d :: items) r x

namespace Schema

variable {ρ : Type} {s : Schema ρ} {depth : Nat} {x : ρ}

theorem readPositions_eq_ok_iff {fault : Option Fault} {fields : List (Field ρ)}
    {items : List Draft} {r : ρ} : readPositions depth fault fields items r = .ok x ↔
      ByPosition depth fields items r x ∧ fault = none := by
  induction items generalizing fields r with
  | nil =>
    rw [readPositions, bind_eq_ok_iff]
    simp only [endOf_eq_ok_iff]
    constructor
    · rintro ⟨-, hfault, h⟩
      obtain rfl := Except.ok.inj h
      exact ⟨.nil fields r, hfault⟩
    · rintro ⟨h, hfault⟩
      cases h
      exact ⟨(), hfault, rfl⟩
  | cons d items ih =>
    cases fields with
    | nil =>
      constructor
      · intro h
        simp [readPositions] at h
      · rintro ⟨h, -⟩
        cases h
    | cons f fields =>
      rw [readPositions, bind_eq_ok_iff]
      simp only [ih]
      constructor
      · rintro ⟨r', hr', h, hfault⟩
        exact ⟨.cons hr' h, hfault⟩
      · rintro ⟨h, hfault⟩
        cases h with
        | cons hr' h => exact ⟨_, hr', h, hfault⟩

/-- What a record is read from: an object, or an array of the values of its first fields. -/
inductive Record (s : Schema ρ) (depth : Nat) : Draft → ρ → Prop
  | object {members : List (StringText × Draft)} {x : ρ}
      (h : s.read (depth + 1) (.object members none) = .ok x) :
      Record s depth (.object members none) x
  | positions {items : List Draft} {x : ρ} (h : ByPosition depth s.fields items s.blank x) :
      Record s depth (.array items none) x

theorem read_eq_ok_iff {d : Draft} : s.read (depth + 1) d = .ok x ↔ s.Record depth d x := by
  constructor
  · intro h
    cases d with
    | object members fault =>
      obtain ⟨p, hp, hend⟩ := bind_eq_ok_iff.mp h
      obtain ⟨_, hfault, -⟩ := bind_eq_ok_iff.mp hend
      obtain rfl := endOf_eq_ok_iff.mp hfault
      exact .object h
    | array items fault =>
      obtain ⟨hpositions, rfl⟩ := readPositions_eq_ok_iff.mp h
      exact .positions hpositions
    | _ => simp [read] at h
  · intro h
    cases h with
    | object h => exact h
    | positions h => exact readPositions_eq_ok_iff.mpr ⟨h, rfl⟩

theorem Record.fault_eq_none {d : Draft} (h : s.Record depth d x) : d.fault? = none := by
  cases h with
  | object _ => rfl
  | positions _ => rfl

/-- A text is a record just when it is one value of the grammar from which the record is read. -/
theorem decode_eq_ok_iff {body : List UInt8} :
    s.codec.decode body = .ok x ↔ ∃ d, Spells d body ∧ s.Record (maxDepth - 1) d x := by
  have hread (d : Draft) : s.codec.read maxDepth d = .ok x ↔ s.Record (maxDepth - 1) d x :=
    read_eq_ok_iff
  rw [Codec.decode, readText_eq_ok_iff]
  constructor
  · rintro ⟨d, hdoc, h⟩
    have hrecord := (hread d).mp h
    exact ⟨d, spells_of_document hdoc hrecord.fault_eq_none, hrecord⟩
  · rintro ⟨d, hd, h⟩
    obtain ⟨hdoc, -⟩ := document_eq_iff.mpr hd
    exact ⟨d, hdoc, (hread d).mpr h⟩

theorem decode_list_eq_ok_iff {body : List UInt8} {xs : List ρ} :
    (Codec.list s.codec).decode body = .ok xs ↔ ∃ items, Spells (.array items none) body ∧
      List.Forall₂ (s.Record (maxDepth - 2)) items xs := by
  have hread (d : Draft) (x : ρ) :
      s.codec.read (maxDepth - 1) d = .ok x ↔ s.Record (maxDepth - 2) d x := read_eq_ok_iff
  have hitems (items : List Draft) (fault : Option Fault) :
      (Codec.list s.codec).read maxDepth (.array items fault) = .ok xs ↔
        List.Forall₂ (s.Record (maxDepth - 2)) items xs ∧ fault = none := by
    change readItems (s.codec.read (maxDepth - 1)) items fault = .ok xs ↔ _
    simp only [readItems_eq_ok_iff, hread]
  rw [Codec.decode, readText_eq_ok_iff]
  constructor
  · rintro ⟨d, hdoc, h⟩
    cases d with
    | array items fault =>
      obtain ⟨hrecords, rfl⟩ := (hitems items fault).mp h
      exact ⟨items, spells_of_document hdoc rfl, hrecords⟩
    | _ => simp [Codec.list, Codec.readList, maxDepth] at h
  · rintro ⟨items, hspells, hrecords⟩
    obtain ⟨hdoc, -⟩ := document_eq_iff.mpr hspells
    exact ⟨_, hdoc, (hitems items none).mpr ⟨hrecords, rfl⟩⟩

end Schema

/-! ### Replies -/

namespace ReplyKind

/-- The replies that are one record. -/
inductive IsRecord : ReplyKind → {ρ : Type} → Schema ρ → (ρ → Reply) → Prop
  | user : IsRecord .user User.schema Reply.user
  | bucket : IsRecord .bucket Bucket.schema Reply.bucket
  | policy : IsRecord .policy Policy.schema Reply.policy
  | indexReport : IsRecord .indexReport IndexReport.schema Reply.indexReport
  | quota : IsRecord .quota Quota.schema Reply.quota
  | usage : IsRecord .usage Usage.schema Reply.usage
  | account : IsRecord .account Account.schema Reply.account
  | info : IsRecord .info Info.schema Reply.info

/-- The replies that are a list of records. -/
inductive IsRecordList : ReplyKind → {ρ : Type} → Schema ρ → (List ρ → Reply) → Prop
  | buckets : IsRecordList .buckets Bucket.schema Reply.buckets
  | keys : IsRecordList .keys UserKey.schema Reply.keys
  | caps : IsRecordList .caps Capability.schema Reply.caps

/-- A reply of this kind is a value that is read by the codec. -/
structure ReadsBy (kind : ReplyKind) {α : Type} (c : Codec α) (wrap : α → Reply) : Prop where
  read_eq : ∀ body, kind.read body = wrap <$> c.decode body
  injective : Function.Injective wrap

variable {kind : ReplyKind} {ρ : Type} {s : Schema ρ}

theorem IsRecord.readsBy {wrap : ρ → Reply} (h : kind.IsRecord s wrap) :
    kind.ReadsBy s.codec wrap := by
  constructor
  · cases h with
    | _ => exact fun _ => rfl
  · cases h with
    | _ => exact fun x y hxy => by injection hxy

theorem IsRecordList.readsBy {wrap : List ρ → Reply} (h : kind.IsRecordList s wrap) :
    kind.ReadsBy (.list s.codec) wrap := by
  constructor
  · cases h with
    | _ => exact fun _ => rfl
  · cases h with
    | _ => exact fun x y hxy => by injection hxy

end ReplyKind

namespace Client

variable {client : Client} {op : Operation} {time : Instant} {r : Request} {t : Transport}
  {kind : ReplyKind}

/-- The call reports that its response cannot be read. -/
def RefusesReply (result : Except CallError (Option Reply)) (kind : ReplyKind)
    (body : List UInt8) : Prop :=
  ∃ fault, result = .error (.decode kind (ofUtf8Lossy body) fault)

theorem perform_eq_ok_iff_of_readsBy {α : Type} {c : Codec α} {wrap : α → Reply}
    (hread : kind.ReadsBy c wrap) (hrequest : client.request (op, time) = .ok r)
    (hstatus : 100 ≤ t.nextResponse.status ∧ t.nextResponse.status < 300)
    (hkind : op.replyKind? = some kind) :
    (∀ x, (client.perform op time t).1 = .ok (some (wrap x)) ↔
      c.decode t.nextResponse.body = .ok x) ∧
    (RefusesReply (client.perform op time t).1 kind t.nextResponse.body ↔
      ∀ x, c.decode t.nextResponse.body ≠ .ok x) := by
  rw [perform_of_success hrequest hstatus hkind, decodeReply, hread.read_eq]
  dsimp only
  cases c.decode t.nextResponse.body with
  | error fault =>
    have hrefused : RefusesReply (.error (.decode kind (ofUtf8Lossy t.nextResponse.body) fault))
        kind t.nextResponse.body := ⟨fault, rfl⟩
    constructor
    · intro x
      simp
    · have hnone (x : α) : (.error fault : Except Fault α) ≠ .ok x := by simp
      exact ⟨fun _ => hnone, fun _ => hrefused⟩
  | ok y =>
    have hok : ¬ RefusesReply (.ok (some (wrap y))) kind t.nextResponse.body := by
      rintro ⟨fault, hfault⟩
      cases hfault
    constructor
    · intro x
      simpa using hread.injective.eq_iff
    · exact ⟨fun h => absurd h hok, fun h => absurd rfl (h y)⟩

/-- The text is an array of the values of the first fields. -/
def IsPositional {ρ : Type} (s : Schema ρ) (body : List UInt8) (x : ρ) : Prop :=
  ∃ items, Spells (.array items none) body ∧ ByPosition (maxDepth - 1) s.fields items s.blank x

/-- The text is an array of records. -/
def IsListOf {ρ : Type} (s : Schema ρ) (body : List UInt8) (xs : List ρ) : Prop :=
  ∃ items, Spells (.array items none) body ∧ List.Forall₂ (s.Record (maxDepth - 2)) items xs

/-- A response that is a success is refused, for an operation with a record for a reply, if its body
is no object, unless it is an array of the values of the first fields: then the call succeeds with
these fields and leaves the others at their defaults. A list of records is refused if its body is
no array, or if one of the items is neither an object from which the record is read nor such an
array. -/
theorem refuses_other_shapes (hrequest : client.request (op, time) = .ok r)
    (hstatus : 100 ≤ t.nextResponse.status ∧ t.nextResponse.status < 300)
    (hkind : op.replyKind? = some kind) {ρ : Type} {s : Schema ρ} :
    (∀ wrap, kind.IsRecord s wrap →
      (∀ members, ¬ Spells (.object members none) t.nextResponse.body) →
      (∀ x, (client.perform op time t).1 = .ok (some (wrap x)) ↔
        IsPositional s t.nextResponse.body x) ∧
      (RefusesReply (client.perform op time t).1 kind t.nextResponse.body ↔
        ∀ x, ¬ IsPositional s t.nextResponse.body x)) ∧
    ∀ wrap, kind.IsRecordList s wrap →
      (∀ xs, (client.perform op time t).1 = .ok (some (wrap xs)) ↔
        IsListOf s t.nextResponse.body xs) ∧
      (RefusesReply (client.perform op time t).1 kind t.nextResponse.body ↔
        ∀ xs, ¬ IsListOf s t.nextResponse.body xs) := by
  constructor
  · intro wrap hrecord hobject
    have hdecode (x : ρ) : s.codec.decode t.nextResponse.body = .ok x ↔
        IsPositional s t.nextResponse.body x := by
      rw [Schema.decode_eq_ok_iff]
      constructor
      · rintro ⟨d, hd, hx⟩
        cases hx with
        | object _ => exact absurd hd (hobject _)
        | positions hpositions => exact ⟨_, hd, hpositions⟩
      · rintro ⟨items, hd, hpositions⟩
        exact ⟨_, hd, .positions hpositions⟩
    obtain ⟨hok, hrefused⟩ :=
      perform_eq_ok_iff_of_readsBy hrecord.readsBy hrequest hstatus hkind
    simp only [ne_eq, hdecode] at hok hrefused
    exact ⟨hok, hrefused⟩
  · intro wrap hlist
    have hdecode (xs : List ρ) : (Codec.list s.codec).decode t.nextResponse.body = .ok xs ↔
        IsListOf s t.nextResponse.body xs := Schema.decode_list_eq_ok_iff
    obtain ⟨hok, hrefused⟩ :=
      perform_eq_ok_iff_of_readsBy hlist.readsBy hrequest hstatus hkind
    simp only [ne_eq, hdecode] at hok hrefused
    exact ⟨hok, hrefused⟩

/-- A client for small examples. -/
def sample : Client := ⟨"http://h", ⟨"k", "s"⟩, {}⟩

/-- Its calls are sent once their URL has a host. -/
theorem exists_request_sample (op : Operation)
    (h : (op.arguments.toOption.bind fun args =>
      (Uri.parse? (AdminUrl.ofParts "http://h" op.resource args.encode)).bind
        Signer.hostValue?) = some "h") :
    ∃ r, sample.request (op, .epoch) = .ok r := by
  obtain ⟨args, hargs, huri⟩ := Option.bind_eq_some_iff.mp h
  obtain ⟨uri, hp, hhost⟩ := Option.bind_eq_some_iff.mp huri
  have hargs : op.arguments = .ok args := by
    cases hop : op.arguments with
    | error e => simp [hop, Except.toOption] at hargs
    | ok args' =>
      obtain rfl : args' = args := by simpa [hop, Except.toOption] using hargs
      rfl
  obtain ⟨r, hr, -⟩ := exists_request (c := sample) hargs hp hhost (by decide) (by decide)
    (by decide) .epoch
  exact ⟨r, hr⟩

/-- A number for a record, and one behind an empty object in a list of records. -/
theorem refuses_other_shapes_number :
    let number : Transport := .ofQueue [⟨200, utf8 "7"⟩]
    let list : Transport := .ofQueue [⟨204, utf8 "[\x7b\x7d,7]"⟩]
    RefusesReply (sample.perform .getInfo .epoch number).1 .info (utf8 "7") ∧
    RefusesReply (sample.perform .listBucketRecords .epoch list).1 .buckets
      (utf8 "[\x7b\x7d,7]") := by
  intro number list
  let seven : NumberText := ⟨false, [7], none, none⟩
  have hnumber : Spells (.number seven) (utf8 "7") := document_eq_iff.mp ⟨rfl, .number _⟩
  have hitems : ∀ d ∈ [Draft.object [] none, .number seven], d.Sound := by
    simpa using ⟨Draft.Sound.object (by simp) (by simp), Draft.Sound.number seven⟩
  have hlist : Spells (.array [.object [] none, .number seven] none) (utf8 "[\x7b\x7d,7]") :=
    document_eq_iff.mp ⟨rfl, .array hitems⟩
  obtain ⟨r, hinfo⟩ := exists_request_sample .getInfo (by decide)
  obtain ⟨r', hbuckets⟩ := exists_request_sample .listBucketRecords (by decide)
  constructor
  · obtain ⟨hrecord, -⟩ :=
      refuses_other_shapes (t := number) (s := Info.schema) hinfo (by decide) rfl
    obtain ⟨-, hrefused⟩ := hrecord _ .info fun members hobject => by
      cases hobject.unique hnumber
    apply hrefused.mpr
    rintro x ⟨items, harray, -⟩
    cases harray.unique hnumber
  · obtain ⟨-, hrecords⟩ :=
      refuses_other_shapes (t := list) (s := Bucket.schema) hbuckets (by decide) rfl
    obtain ⟨-, hrefused⟩ := hrecords _ .buckets
    apply hrefused.mpr
    rintro xs ⟨items, harray, hxs⟩
    cases harray.unique hlist
    obtain ⟨x, -, hx⟩ := exists_right_of_mem hxs (List.mem_cons_of_mem _ List.mem_cons_self)
    cases hx

/-- An empty array is a record without any field, and texts in an array are the first fields. -/
theorem array_read_as_record :
    let empty : Transport := .ofQueue [⟨200, utf8 "[]"⟩]
    let texts : Transport := .ofQueue [⟨200, utf8 "[\"a\",\"b\"]"⟩]
    (sample.perform .getInfo .epoch empty).1 = .ok (some (.info {})) ∧
    (sample.perform (.getAccount "x") .epoch texts).1 =
      .ok (some (.account { id := some "a", name := some "b" })) ∧
    ∀ members, ¬ Spells (.object members none) (utf8 "[]") ∧
      ¬ Spells (.object members none) (utf8 "[\"a\",\"b\"]") := by
  intro empty texts
  have hempty : Spells (.array [] none) (utf8 "[]") := document_eq_iff.mp ⟨rfl, .array (by simp)⟩
  have hitems : ∀ d ∈ [Draft.string (.ofString "a"), .string (.ofString "b")], d.Sound := by
    simpa using ⟨Draft.Sound.string rfl, Draft.Sound.string rfl⟩
  have htexts : Spells (.array [.string (.ofString "a"), .string (.ofString "b")] none)
      (utf8 "[\"a\",\"b\"]") := document_eq_iff.mp ⟨rfl, .array hitems⟩
  obtain ⟨r, hinfo⟩ := exists_request_sample .getInfo (by decide)
  obtain ⟨r', haccount⟩ := exists_request_sample (.getAccount "x") (by decide)
  have hinfoRead : Info.schema.codec.decode (utf8 "[]") = .ok {} := by decide +kernel
  have haccountRead : Account.schema.codec.decode (utf8 "[\"a\",\"b\"]") =
      .ok { id := some "a", name := some "b" } := by decide +kernel
  obtain ⟨hinfoResult, -⟩ := perform_eq_ok_iff_of_readsBy (t := empty)
    ReplyKind.IsRecord.info.readsBy hinfo (by decide) rfl
  obtain ⟨haccountResult, -⟩ := perform_eq_ok_iff_of_readsBy (t := texts)
    ReplyKind.IsRecord.account.readsBy haccount (by decide) rfl
  refine ⟨(hinfoResult _).mpr hinfoRead, (haccountResult _).mpr haccountRead, ?_⟩
  intro members
  constructor
  · intro hobject
    cases hobject.unique hempty
  · intro hobject
    cases hobject.unique htexts

end Client

end GatewayAdmin
