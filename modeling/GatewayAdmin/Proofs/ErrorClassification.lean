import GatewayAdmin.ErrorReply
import GatewayAdmin.Proofs.JsonRead
import GatewayAdmin.Proofs.Utf8Text

/-! Which bodies name a failure. A body counts when it is an object of the JSON grammar whose three
members are texts where they are there at all, and whose code says something. -/
namespace GatewayAdmin

open Json

namespace ErrorReply

/-- The member of a name that is absent or `null`, or the text that it is. -/
inductive OptionalText (entries : List (String × Value)) (name : String) : Option String → Prop
  | absent (h : lastMember entries name = none) : OptionalText entries name none
  | null (h : lastMember entries name = some .null) : OptionalText entries name none
  | text {s : String} (h : lastMember entries name = some (.string s)) :
      OptionalText entries name (some s)

/-- The body is an object with these members, the three of them in the payload well-typed. -/
structure Decodes (body : List UInt8) (entries : List (String × Value)) (p : Payload) : Prop where
  object : ObjectText (maxDepth - 1) body entries
  code : OptionalText entries "Code" p.code
  requestId : OptionalText entries "RequestId" p.requestId
  hostId : OptionalText entries "HostId" p.hostId

theorem readMembersOf_eq_ok_iff {d : Draft} {values : List (String × Value)} :
    readMembersOf d = .ok values ↔ ∃ members entries, d = .object members none ∧
      List.Forall₂ (MemberRead (Draft.readValue (maxDepth - 1))) members entries ∧
      values = gather entries := by
  cases d with
  | object members fault =>
    rw [readMembersOf, readMembers_eq_ok_iff]
    constructor
    · rintro ⟨entries, hentries, rfl, hvalues⟩
      exact ⟨members, entries, rfl, hentries, hvalues⟩
    · rintro ⟨_, entries, h, hentries, hvalues⟩
      obtain ⟨rfl, rfl⟩ := Draft.object.inj h
      exact ⟨entries, hentries, rfl, hvalues⟩
  | null | bool | number | string | array | broken => simp [readMembersOf]

theorem readText_members_eq_ok_iff {body : List UInt8} {values : List (String × Value)} :
    readText readMembersOf body = .ok values ↔
      ∃ entries, ObjectText (maxDepth - 1) body entries ∧ values = gather entries := by
  rw [readText_eq_ok_iff]
  constructor
  · rintro ⟨d, hdoc, hread⟩
    obtain ⟨members, entries, rfl, hentries, rfl⟩ := readMembersOf_eq_ok_iff.mp hread
    have hsound := sound_object hentries Draft.sound_of_readValue
    exact ⟨entries, ⟨members, document_eq_iff.mp ⟨hdoc, hsound⟩, hentries⟩, rfl⟩
  · rintro ⟨entries, ⟨members, hspells, hentries⟩, rfl⟩
    obtain ⟨hdoc, -⟩ := document_eq_iff.mpr hspells
    exact ⟨_, hdoc, readMembersOf_eq_ok_iff.mpr ⟨members, entries, rfl, hentries, rfl⟩⟩

theorem textMember_eq_ok_iff {entries : List (String × Value)} {name : String}
    {value : Option String} :
    textMember (gather entries) name = .ok value ↔ OptionalText entries name value := by
  rw [textMember, lookup_gather]
  constructor
  · intro h
    split at h
    · next hnone =>
      obtain rfl := Except.ok.inj h
      exact .absent hnone
    · next hnull =>
      obtain rfl := Except.ok.inj h
      exact .null hnull
    · next s hs =>
      obtain rfl := Except.ok.inj h
      exact .text hs
    · simp at h
  · intro h
    cases h with
    | absent h => rw [h]
    | null h => rw [h]
    | text h => rw [h]

theorem readPayload_eq_ok_iff {body : List UInt8} {p : Payload} :
    readPayload body = .ok p ↔ ∃ entries, Decodes body entries p := by
  simp only [readPayload, bind_eq_ok_iff, readText_members_eq_ok_iff]
  constructor
  · rintro ⟨_, ⟨entries, hobject, rfl⟩, code, hcode, requestId, hrequest, hostId, hhost, h⟩
    obtain rfl := Except.ok.inj h
    exact ⟨entries, hobject, textMember_eq_ok_iff.mp hcode, textMember_eq_ok_iff.mp hrequest,
      textMember_eq_ok_iff.mp hhost⟩
  · rintro ⟨entries, hobject, hcode, hrequest, hhost⟩
    exact ⟨_, ⟨entries, hobject, rfl⟩, _, textMember_eq_ok_iff.mpr hcode, _,
      textMember_eq_ok_iff.mpr hrequest, _, textMember_eq_ok_iff.mpr hhost, rfl⟩

theorem allBlank_eq_false_iff {s : String} :
    Text.allBlank s = false ↔ ∃ c ∈ s.toList, Text.isBlank c = false := by
  simp [Text.allBlank]

theorem ofBody_of_code {body : List UInt8} {p : Payload} {code : String}
    (hp : readPayload body = .ok p) (hcode : p.code = some code)
    (hblank : Text.allBlank code = false) :
    ofBody body = .status ⟨code, p.requestId.getD "", p.hostId.getD ""⟩ := by
  simp [ofBody, hp, hcode, hblank, Option.filter]

theorem ofBody_of_no_code {body : List UInt8} {p : Payload} (hp : readPayload body = .ok p)
    (hcode : ∀ code ∈ p.code, Text.allBlank code = true) :
    ofBody body = .unparsable ⟨Text.ofUtf8Lossy body, none⟩ := by
  have hfilter : p.code.filter (!Text.allBlank ·) = none := by
    simpa [Option.filter_eq_none_iff] using hcode
  simp [ofBody, hp, hfilter]

theorem ofBody_of_fault {body : List UInt8} {f : Fault} (hf : readPayload body = .error f) :
    ofBody body = .unparsable ⟨Text.ofUtf8Lossy body, some f⟩ := by
  simp [ofBody, hf]

/-- The three outcomes, by what the body decodes to. -/
theorem ofBody_cases (body : List UInt8) :
    (∃ p code, readPayload body = .ok p ∧ p.code = some code ∧ Text.allBlank code = false ∧
      ofBody body = .status ⟨code, p.requestId.getD "", p.hostId.getD ""⟩) ∨
    (∃ p, readPayload body = .ok p ∧ (∀ code ∈ p.code, Text.allBlank code = true) ∧
      ofBody body = .unparsable ⟨Text.ofUtf8Lossy body, none⟩) ∨
    ∃ f, readPayload body = .error f ∧
      ofBody body = .unparsable ⟨Text.ofUtf8Lossy body, some f⟩ := by
  cases hp : readPayload body with
  | error f => exact .inr (.inr ⟨f, rfl, ofBody_of_fault hp⟩)
  | ok p =>
    cases hcode : p.code with
    | none =>
      have hnone : ∀ code ∈ p.code, Text.allBlank code = true := by simp [hcode]
      exact .inr (.inl ⟨p, rfl, hnone, ofBody_of_no_code hp hnone⟩)
    | some code =>
      cases hblank : Text.allBlank code with
      | true =>
        have hall : ∀ code ∈ p.code, Text.allBlank code = true := by simp [hcode, hblank]
        exact .inr (.inl ⟨p, rfl, hall, ofBody_of_no_code hp hall⟩)
      | false => exact .inl ⟨p, code, rfl, hcode, hblank, ofBody_of_code hp hcode hblank⟩

theorem ofBody_eq_status_iff {body : List UInt8} {code requestId hostId : String} :
    ofBody body = .status ⟨code, requestId, hostId⟩ ↔ ∃ p, readPayload body = .ok p ∧
      p.code = some code ∧ Text.allBlank code = false ∧ requestId = p.requestId.getD "" ∧
      hostId = p.hostId.getD "" := by
  constructor
  · intro h
    rcases ofBody_cases body with ⟨p, c, hp, hcode, hblank, hb⟩ | ⟨_, _, _, hb⟩ | ⟨_, _, hb⟩
    · rw [hb, ErrorReply.status.injEq, Refusal.mk.injEq] at h
      obtain ⟨rfl, rfl, rfl⟩ := h
      exact ⟨p, hp, hcode, hblank, rfl, rfl⟩
    · simp [hb] at h
    · simp [hb] at h
  · rintro ⟨p, hp, hcode, hblank, rfl, rfl⟩
    exact ofBody_of_code hp hcode hblank

/-- The bodies that become status errors, with what these say, and what becomes of the others. -/
theorem ofBody_classification (body : List UInt8) :
    (∀ code requestId hostId : String, ofBody body = .status ⟨code, requestId, hostId⟩ ↔
      ∃ entries p, Decodes body entries p ∧ p.code = some code ∧
        (∃ c ∈ code.toList, Text.isBlank c = false) ∧ requestId = p.requestId.getD "" ∧
        hostId = p.hostId.getD "") ∧
    ((∀ e, ofBody body ≠ .status e) → ∃ u, ofBody body = .unparsable u ∧
      u.body = Text.ofUtf8Lossy body ∧ (∀ s, body = Text.utf8 s → u.body = s) ∧
      (ofBody body).message = "failed to unmarshal radosgw http response. " ++ u.body ∧
      (u.cause = none ↔ ∃ entries p, Decodes body entries p ∧
        ∀ code ∈ p.code, ∀ c ∈ code.toList, Text.isBlank c = true)) := by
  refine ⟨fun code requestId hostId => ?_, fun hstatus => ?_⟩
  · rw [ofBody_eq_status_iff]
    simp only [readPayload_eq_ok_iff, allBlank_eq_false_iff]
    constructor
    · rintro ⟨p, ⟨entries, hp⟩, h⟩
      exact ⟨entries, p, hp, h⟩
    · rintro ⟨entries, p, hp, h⟩
      exact ⟨p, ⟨entries, hp⟩, h⟩
  · have hlossy : ∀ s, body = Text.utf8 s → Text.ofUtf8Lossy body = s := by
      rintro s rfl
      exact Text.ofUtf8Lossy_utf8 s
    rcases ofBody_cases body with ⟨_, _, _, _, _, hb⟩ | ⟨p, hp, hcode, hb⟩ | ⟨f, hf, hb⟩
    · exact absurd hb (hstatus _)
    · obtain ⟨entries, hdecodes⟩ := readPayload_eq_ok_iff.mp hp
      have hblank : ∀ code ∈ p.code, ∀ c ∈ code.toList, Text.isBlank c = true := by
        simpa [Text.allBlank] using hcode
      exact ⟨_, hb, rfl, hlossy, by rw [hb]; rfl, fun _ => ⟨entries, p, hdecodes, hblank⟩,
        fun _ => rfl⟩
    · refine ⟨_, hb, rfl, hlossy, by rw [hb]; rfl, fun h => by simp at h, ?_⟩
      rintro ⟨entries, p, hdecodes, -⟩
      rw [readPayload_eq_ok_iff.mpr ⟨entries, hdecodes⟩] at hf
      simp at hf

/-- White space around the object, a code given twice, and a `null` beside a missing member. -/
theorem ofBody_classification_repeated : ∃ entries p,
    Decodes (Text.utf8 " \x7b\"Code\":1,\"HostId\":null,\"Code\":\"A \"\x7d\n") entries p ∧
      p.code = some "A " ∧ p.requestId.getD "" = "" ∧ p.hostId.getD "" = "" := by
  have hstatus : ofBody (Text.utf8
      " \x7b\"Code\":1,\"HostId\":null,\"Code\":\"A \"\x7d\n") = .status ⟨"A ", "", ""⟩ := by
    decide +kernel
  obtain ⟨entries, p, hdecodes, hcode, -, hrequest, hhost⟩ :=
    ((ofBody_classification _).1 "A " "" "").mp hstatus
  exact ⟨entries, p, hdecodes, hcode, hrequest.symm, hhost.symm⟩

end ErrorReply
end GatewayAdmin
