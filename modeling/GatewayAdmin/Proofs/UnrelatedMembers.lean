import GatewayAdmin.Proofs.ErrorClassification
import GatewayAdmin.Proofs.JsonReadBack
import GatewayAdmin.Proofs.JsonLayout

/-! Members of an error body that are none of the three that are looked for. The whole body is read
as a value, so such a member is passed over when it can be kept as a value, and otherwise it hides
the reason code beside it. -/
namespace GatewayAdmin

open Json

namespace Json

/-- What the grammar allows and a value can hold: numbers in the range of numbers, strings and names
of Unicode text, and no more containers around each other than `depth`. -/
inductive Draft.Keepable : Nat → Draft → Prop
  | null {depth : Nat} : Keepable depth .null
  | bool {depth : Nat} (b : Bool) : Keepable depth (.bool b)
  | number {depth : Nat} {t : NumberText} {n : Number} (h : t.number? = some n) :
      Keepable depth (.number t)
  | string {depth : Nat} {s : StringText} {text : String} (h : s.read = .ok text) :
      Keepable depth (.string s)
  | array {depth : Nat} {items : List Draft} (h : ∀ d ∈ items, Keepable depth d) :
      Keepable (depth + 1) (.array items none)
  | object {depth : Nat} {members : List (StringText × Draft)}
      (hnames : ∀ m ∈ members, ∃ name, m.1.read = .ok name)
      (hvalues : ∀ m ∈ members, Keepable depth m.2) : Keepable (depth + 1) (.object members none)

/-- A member that can be kept: its name is a text, and its value nests no deeper than `depth`. -/
structure KeepableMember (depth : Nat) (m : StringText × Draft) : Prop where
  name : ∃ name, m.1.read = .ok name
  value : m.2.Keepable depth

theorem NumberText.read_eq_ok_iff {t : NumberText} {n : Number} :
    t.read = .ok n ↔ t.number? = some n := by
  rw [read]
  cases t.number? with
  | none => simp
  | some number => simp

theorem Draft.keepable_of_readValue {depth : Nat} {d : Draft} {v : Value}
    (h : d.readValue depth = .ok v) : d.Keepable depth := by
  induction depth using Nat.strongRecOn generalizing d v with
  | ind depth ih =>
    cases readsTo_of_readValue h with
    | null => exact .null
    | bool b => exact .bool b
    | number hn => exact .number (NumberText.read_eq_ok_iff.mp hn)
    | string htext => exact .string htext
    | @array inner _ _ hvalues =>
      apply Keepable.array
      intro d hd
      obtain ⟨v, -, hv⟩ := exists_right_of_mem hvalues hd
      exact ih inner (Nat.lt_succ_self inner) hv
    | @object inner _ _ hentries =>
      apply Keepable.object
      · intro m hm
        obtain ⟨e, -, hname, -⟩ := exists_right_of_mem hentries hm
        exact ⟨e.1, hname⟩
      · intro m hm
        obtain ⟨e, -, -, hvalue⟩ := exists_right_of_mem hentries hm
        exact ih inner (Nat.lt_succ_self inner) hvalue

theorem Draft.Keepable.exists_readValue {depth : Nat} {d : Draft} (h : d.Keepable depth) :
    ∃ v, d.readValue depth = .ok v := by
  induction h with
  | null => exact ⟨.null, by rw [readValue]⟩
  | bool b => exact ⟨.bool b, by rw [readValue]⟩
  | @number _ _ n hn =>
    have hread := NumberText.read_eq_ok_iff.mpr hn
    exact ⟨.number n, by rw [readValue]; exact bind_eq_ok_iff.mpr ⟨n, hread, rfl⟩⟩
  | @string _ _ text htext =>
    exact ⟨.string text, by rw [readValue]; exact bind_eq_ok_iff.mpr ⟨text, htext, rfl⟩⟩
  | @array depth items _ ih =>
    obtain ⟨values, hvalues⟩ := exists_forall₂ ih
    have hitems := readItems_eq_ok_iff.mpr ⟨hvalues, rfl⟩
    exact ⟨.array values, bind_eq_ok_iff.mpr ⟨values, hitems, rfl⟩⟩
  | @object depth members hnames _ ih =>
    have hmembers : ∀ m ∈ members, ∃ e, MemberRead (readValue depth) m e := by
      intro m hm
      obtain ⟨name, hname⟩ := hnames m hm
      obtain ⟨v, hv⟩ := ih m hm
      exact ⟨(name, v), hname, hv⟩
    obtain ⟨entries, hentries⟩ := exists_forall₂ hmembers
    have hvalues := readMembers_eq_ok_iff.mpr ⟨entries, hentries, rfl, rfl⟩
    exact ⟨.object (gather entries), bind_eq_ok_iff.mpr ⟨_, hvalues, rfl⟩⟩

theorem keepableMember_iff {depth : Nat} {m : StringText × Draft} :
    KeepableMember depth m ↔ ∃ e, MemberRead (Draft.readValue depth) m e := by
  constructor
  · intro h
    obtain ⟨name, hname⟩ := h.name
    obtain ⟨v, hv⟩ := h.value.exists_readValue
    exact ⟨(name, v), hname, hv⟩
  · rintro ⟨e, hname, hv⟩
    exact ⟨⟨e.1, hname⟩, Draft.keepable_of_readValue hv⟩

/-- An entry of another name does not matter for a name, wherever it stands. -/
theorem lastMember_insert {α : Type} {before after : List (String × α)} {e : String × α}
    {name : String} (h : name ≠ e.1) :
    lastMember (before ++ e :: after) name = lastMember (before ++ after) name := by
  obtain ⟨key, value⟩ := e
  simp only [lastMember, List.reverse_append, List.reverse_cons, List.append_assoc,
    List.singleton_append, List.lookup_append, lookup_cons_eq_ite]
  rw [if_neg h]

end Json

namespace ErrorReply

/-- The names that are looked for in an error body. -/
def payloadNames : List String := ["Code", "RequestId", "HostId"]

theorem OptionalText.insert {before after : List (String × Value)} {e : String × Value}
    {name : String} {value : Option String} (hname : name ≠ e.1)
    (h : OptionalText (before ++ after) name value) :
    OptionalText (before ++ e :: after) name value := by
  cases h with
  | absent h => exact .absent ((lastMember_insert hname).trans h)
  | null h => exact .null ((lastMember_insert hname).trans h)
  | text h => exact .text ((lastMember_insert hname).trans h)

section
variable {before after : List (StringText × Draft)} {m : StringText × Draft}
  {text text' : List UInt8} {p : Payload}

/-- Whatever the payload is, all members of the body were kept. -/
theorem keepableMember_of_readPayload (ht : Spells (.object (before ++ m :: after) none) text)
    (hp : readPayload text = .ok p) : KeepableMember (maxDepth - 1) m := by
  obtain ⟨entries, hdecodes⟩ := readPayload_eq_ok_iff.mp hp
  obtain ⟨members, hspells, hentries⟩ := hdecodes.object
  obtain ⟨rfl, -⟩ := Draft.object.inj (ht.unique hspells)
  obtain ⟨e, -, he⟩ :=
    exists_right_of_mem hentries (List.mem_append_right before List.mem_cons_self)
  exact keepableMember_iff.mpr ⟨e, he⟩

/-- A member that can be kept and has another name leaves the payload as it is. -/
theorem readPayload_insert (ht : Spells (.object (before ++ after) none) text)
    (ht' : Spells (.object (before ++ m :: after) none) text')
    (hname : ∀ name ∈ payloadNames, m.1.read ≠ .ok name) (hm : KeepableMember (maxDepth - 1) m)
    (hp : readPayload text = .ok p) : readPayload text' = .ok p := by
  obtain ⟨entries, hdecodes⟩ := readPayload_eq_ok_iff.mp hp
  obtain ⟨members, hspells, hentries⟩ := hdecodes.object
  obtain ⟨rfl, -⟩ := Draft.object.inj (ht.unique hspells)
  obtain ⟨e, he⟩ := keepableMember_iff.mp hm
  have hother : ∀ name ∈ payloadNames, name ≠ e.1 := by
    rintro name hmem rfl
    exact hname e.1 hmem he.1
  -- the entries are cut where the member is put in
  obtain ⟨earlier, later, hearlier, hlater, rfl⟩ := exists_append_of_forall₂ hentries
  have hentries' := List.rel_append hearlier (List.Forall₂.cons he hlater)
  apply readPayload_eq_ok_iff.mpr
  refine ⟨earlier ++ e :: later, ⟨_, ht', hentries'⟩, ?_, ?_, ?_⟩
  · exact hdecodes.code.insert (hother "Code" (by simp [payloadNames]))
  · exact hdecodes.requestId.insert (hother "RequestId" (by simp [payloadNames]))
  · exact hdecodes.hostId.insert (hother "HostId" (by simp [payloadNames]))

end

/-- A body from which a status error is made is an object. Put one more member into it, anywhere and
under a name that is not looked for: the status error stays the same exactly when that member can be
kept, and otherwise nothing is left of it but an error in the JSON text. -/
theorem ofBody_insert_member {text : List UInt8} {e : Refusal} (he : ofBody text = .status e) :
    ∃ members, Spells (.object members none) text ∧
      ∀ (before after : List (StringText × Draft)) (m : StringText × Draft) (text' : List UInt8),
        members = before ++ after → (∀ name ∈ payloadNames, m.1.read ≠ .ok name) →
        Spells (.object (before ++ m :: after) none) text' →
        (ofBody text' = .status e ↔ KeepableMember (maxDepth - 1) m) ∧
        (¬ KeepableMember (maxDepth - 1) m →
          ∃ fault, ofBody text' = .unparsable ⟨Text.ofUtf8Lossy text', some fault⟩) := by
  obtain ⟨code, requestId, hostId⟩ := e
  obtain ⟨p, hp, hpayload⟩ := ofBody_eq_status_iff.mp he
  obtain ⟨entries, hdecodes⟩ := readPayload_eq_ok_iff.mp hp
  obtain ⟨members, ht, -⟩ := hdecodes.object
  refine ⟨members, ht, ?_⟩
  intro before after m text' hmembers hname ht'
  rw [hmembers] at ht
  constructor
  · constructor
    · intro hstatus
      obtain ⟨p', hp', -⟩ := ofBody_eq_status_iff.mp hstatus
      exact keepableMember_of_readPayload ht' hp'
    · intro hm
      exact ofBody_eq_status_iff.mpr ⟨p, readPayload_insert ht ht' hname hm hp, hpayload⟩
  · intro hm
    cases hread : readPayload text' with
    | ok p' => exact absurd (keepableMember_of_readPayload ht' hread) hm
    | error fault => exact ⟨fault, ofBody_of_fault hread⟩

/-- Details of several kinds between the code and the host. -/
theorem ofBody_insert_member_details :
    let code : String × Value := ("Code", .string "NoSuchKey")
    let host : String × Value := ("HostId", .string "h")
    let details : Value := .array [.object [("ö", .integer (10 ^ 18))], .null]
    let v : Value := .object [code, host]
    let v' : Value := .object [code, ("Details", details), host]
    ofBody (Text.utf8 v.compact) = .status ⟨"NoSuchKey", "", "h"⟩ ∧
      ofBody (Text.utf8 v'.compact) = .status ⟨"NoSuchKey", "", "h"⟩ := by
  intro code host details v v'
  have hstring (s : String) : (Value.string s).Integral := .string s
  have hinteger : (Value.integer (10 ^ 18)).Exact := .integer ⟨by decide, by decide⟩
  have hobject : (Value.object [("ö", .integer (10 ^ 18))]).Exact :=
    .object (List.pairwise_singleton _ _) (List.forall_mem_singleton.mpr hinteger)
  have hdetails : details.Exact :=
    .array (List.forall_mem_cons.mpr ⟨hobject, List.forall_mem_singleton.mpr .null⟩)
  have hv : v.Integral := .object (by simpa [code, host] using ⟨hstring _, hstring _⟩)
  have hv' : v'.Integral :=
    .object (by simpa [code, host] using ⟨hstring _, hdetails.integral, hstring _⟩)
  have hstatus : ofBody (Text.utf8 v.compact) = .status ⟨"NoSuchKey", "", "h"⟩ := by
    decide +kernel
  let member (m : String × Value) : StringText × Draft := (.ofString m.1, m.2.draft)
  have hspells : Spells (.object ([member code] ++ [member host]) none) (Text.utf8 v.compact) :=
    hv.spells_compact
  have hspells' : Spells (.object ([member code] ++ member ("Details", details) :: [member host])
      none) (Text.utf8 v'.compact) := hv'.spells_compact
  have hname : ∀ name ∈ payloadNames, (StringText.ofString "Details").read ≠ .ok name := by
    rw [StringText.read_ofString]
    decide
  have hread : details.draft.readValue (maxDepth - 1) = .ok details :=
    hdetails.readValue_draft (by decide)
  have hkeepable : KeepableMember (maxDepth - 1) (member ("Details", details)) :=
    ⟨⟨_, StringText.read_ofString _⟩, Draft.keepable_of_readValue hread⟩
  obtain ⟨members, hmembers, hinsert⟩ := ofBody_insert_member hstatus
  obtain ⟨hmembers, -⟩ := Draft.object.inj (hmembers.unique hspells)
  have hsame := hinsert _ _ (member ("Details", details)) _ hmembers hname hspells'
  exact ⟨hstatus, hsame.1.mpr hkeepable⟩

/-- A number that is too large for a float hides the code beside it. -/
theorem ofBody_number_out_of_range :
    let code : StringText × Draft := (.ofString "Code", .string (.ofString "A"))
    let size : StringText × Draft :=
      (.ofString "Size", .number ⟨false, [1], none, some (false, [4, 0, 0])⟩)
    let text := Text.utf8 "\x7b\"Code\":\"A\"\x7d"
    let text' := Text.utf8 "\x7b\"Code\":\"A\",\"Size\":1e400\x7d"
    Spells (.object [code] none) text ∧ Spells (.object [code, size] none) text' ∧
      ofBody text = .status ⟨"A", "", ""⟩ ∧
      ofBody text' = .unparsable
        ⟨"\x7b\"Code\":\"A\",\"Size\":1e400\x7d", some .malformed⟩ := by
  intro code size text text'
  have hcode : code.1.fault = none ∧ code.2.Sound := ⟨rfl, .string rfl⟩
  have hsize : size.1.fault = none ∧ size.2.Sound := ⟨rfl, .number _⟩
  refine ⟨document_eq_iff.mp ⟨rfl, ?_⟩, document_eq_iff.mp ⟨rfl, ?_⟩, ?_, ?_⟩
  · exact .object (by simpa using hcode.1) (by simpa using hcode.2)
  · exact .object (by simpa using ⟨hcode.1, hsize.1⟩) (by simpa using ⟨hcode.2, hsize.2⟩)
  · decide +kernel
  · decide +kernel

end ErrorReply
end GatewayAdmin
