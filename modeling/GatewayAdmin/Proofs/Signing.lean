import GatewayAdmin.Proofs.AuthorityText
import GatewayAdmin.Proofs.Outcome
import GatewayAdmin.Signature.Signer

/-! What signing does, said once: when it succeeds, which texts it returns and which header fields
the request has afterwards. -/
namespace GatewayAdmin

theorem Digest.exists_digit_of_mem_hex {bs : List UInt8} {c : Char} (hc : c ∈ (hex bs).toList) :
    ∃ n < 16, c = Text.hexDigit n := by
  rw [hex, String.toList_ofList] at hc
  obtain ⟨b, _, hc⟩ := List.mem_flatMap.mp hc
  have hb := b.toNat_lt
  simp only [hexByte, List.mem_cons, List.not_mem_nil, or_false] at hc
  rcases hc with rfl | rfl
  · exact ⟨_, by omega, rfl⟩
  · exact ⟨_, by omega, rfl⟩

namespace Signer

open Text

theorem hostValue?_cases {uri : Uri} {host : String} (h : hostValue? uri = some host) :
    ∃ authority, uri.authority? = some authority ∧ authority.host ≠ "" ∧
      (host = authority.host ∨
        ∃ port, authority.port = some port ∧ host = authority.host ++ ":" ++ decimal port) := by
  unfold hostValue? at h
  obtain ⟨name, hname, h⟩ := Option.bind_eq_some_iff.mp h
  obtain ⟨authority, ha, rfl⟩ := Option.map_eq_some_iff.mp hname
  refine ⟨authority, ha, ?_⟩
  split_ifs at h with he
  refine ⟨he, ?_⟩
  cases hp : uri.port? with
  | none =>
    simp only [hp, Option.some.injEq] at h
    exact .inl h.symm
  | some port =>
    simp only [hp] at h
    split_ifs at h with hd
    · exact .inl (Option.some.inj h).symm
    · have hport : authority.port = some port := by simpa [Uri.port?, ha] using hp
      exact .inr ⟨port, hport, (Option.some.inj h).symm⟩

theorem allVisible_hostValue {uri : Uri} {host : String} (h : hostValue? uri = some host) :
    AllVisible host.toList := by
  obtain ⟨authority, _, _, hh⟩ := hostValue?_cases h
  have hc : AllVisible authority.host.toList := by
    simpa [Authority.host] using authority.allVisible_hostChars
  rcases hh with rfl | ⟨port, _, rfl⟩
  · exact hc
  · simp only [String.toList_append, allVisible_append, decimal, String.toList_ofList]
    exact ⟨⟨hc, by decide⟩, allVisible_decimalChars port⟩

theorem checkValue_eq_ok_iff {name value : String} {u : Unit} :
    checkValue name value = .ok u ↔ isHeaderValue value = true := by
  unfold checkValue
  split_ifs with h <;> simp [h]

/-- The only way in which signing succeeds. -/
theorem sign_eq_ok_iff {s : Signer} {r r' : Request} {c : Credentials} {t : Instant}
    {signed : Signed} :
    s.sign r c t = .ok (signed, r') ↔ ∃ host, hostValue? r.uri = some host ∧
      signed = s.texts c r.method r.uri ⟨host, Canonical.unsignedPayload, t.amzDate⟩ t.dateStamp ∧
      isHeaderValue t.amzDate = true ∧ isHeaderValue host = true ∧
      isHeaderValue signed.authorization = true ∧
      r' = { r with headers := setFields r.headers t.amzDate host signed.authorization } := by
  unfold sign
  cases hh : hostValue? r.uri with
  | none => simp
  | some host =>
    simp only [Option.some.injEq, exists_eq_left']
    generalize s.texts c r.method r.uri _ t.dateStamp = out
    simp only [bind_eq_ok_iff, checkValue_eq_ok_iff, Except.ok.injEq, Prod.mk.injEq]
    constructor
    · rintro ⟨_, hd, _, ho, _, ha, rfl, rfl⟩
      exact ⟨rfl, hd, ho, ha, rfl⟩
    · rintro ⟨rfl, hd, ho, ha, rfl⟩
      exact ⟨(), hd, (), ho, (), ha, rfl, rfl⟩

theorem hostValue?_eq_none_iff {uri : Uri} :
    hostValue? uri = none ↔ uri.host? = none ∨ uri.host? = some "" := by
  unfold hostValue?
  cases hh : uri.host? with
  | none => simp
  | some host =>
    by_cases he : host = ""
    · simp [he]
    · cases hp : uri.port? with
      | none => simp [he]
      | some port =>
        simp only [Option.bind_eq_bind, Option.bind_some, he, if_false]
        split_ifs <;> simp [he]

theorem checkValue_ne_unresolvable {name value text : String} :
    checkValue name value ≠ .error (.unresolvableUri text) := by
  unfold checkValue
  split_ifs <;> simp

/-- Only a URI without a host to sign for is unresolvable. -/
theorem sign_eq_unresolvable_iff {s : Signer} {r : Request} {c : Credentials} {t : Instant}
    {text : String} :
    s.sign r c t = .error (.unresolvableUri text) ↔
      hostValue? r.uri = none ∧ text = r.uri.toText := by
  unfold sign
  cases hh : hostValue? r.uri with
  | none => simp [eq_comm]
  | some host => simp [bind_eq_error_iff, checkValue_ne_unresolvable]

theorem isHeaderValue_append (a b : String) :
    isHeaderValue (a ++ b) = (isHeaderValue a && isHeaderValue b) := by
  simp [isHeaderValue, List.all_append]

theorem isHeaderValue_of_allVisible {s : String} (h : AllVisible s.toList) :
    isHeaderValue s = true := by
  refine List.all_eq_true.mpr fun c hc => ?_
  have hv := (isVisible_iff c).mp (h c hc)
  simp only [isHeaderValueChar, Bool.or_eq_true, Bool.and_eq_true, decide_eq_true_eq]
  omega

theorem allVisible_hex (bs : List UInt8) : AllVisible (Digest.hex bs).toList := by
  have hd : ∀ n < 16, isVisible (hexDigit n) = true := by decide
  intro c hc
  obtain ⟨n, hn, rfl⟩ := Digest.exists_digit_of_mem_hex hc
  exact hd n hn

/-- Of the authorization only the access key, the region and the service come from outside. -/
theorem isHeaderValue_authorization (s : Signer) (c : Credentials) (method : Method) (uri : Uri)
    (v : Canonical.SignedValues) (t : Instant) :
    isHeaderValue (s.texts c method uri v t.dateStamp).authorization =
      (isHeaderValue c.accessKey && isHeaderValue s.region && isHeaderValue s.service) := by
  have hdate : isHeaderValue t.dateStamp = true := by
    apply isHeaderValue_of_allVisible
    rw [Instant.dateStamp, String.toList_ofList]
    exact t.allVisible_dateStampChars
  have hsig : isHeaderValue (s.texts c method uri v t.dateStamp).signature = true :=
    isHeaderValue_of_allVisible (allVisible_hex _)
  have hfix : isHeaderValue Scope.algorithm = true ∧ isHeaderValue " Credential=" = true ∧
      isHeaderValue "/" = true ∧ isHeaderValue Scope.terminator = true ∧
      isHeaderValue ", SignedHeaders=" = true ∧ isHeaderValue Canonical.signedHeaders = true ∧
      isHeaderValue ", Signature=" = true := by decide
  change isHeaderValue (authorizationValue c.accessKey
    (Scope.credentialScope t.dateStamp s.region s.service)
    (s.texts c method uri v t.dateStamp).signature) = _
  simp only [authorizationValue, Scope.credentialScope, isHeaderValue_append, hdate, hsig, hfix,
    Bool.true_and, Bool.and_true, Bool.and_assoc]

/-- The secret has no part in whether signing succeeds. -/
theorem sign_succeeds (s : Signer) (r : Request) (c : Credentials) (t : Instant) {host : String}
    (hh : hostValue? r.uri = some host) (hk : isHeaderValue c.accessKey = true)
    (hr : isHeaderValue s.region = true) (hs : isHeaderValue s.service = true) :
    ∃ signed r', s.sign r c t = .ok (signed, r') := by
  refine ⟨_, _, sign_eq_ok_iff.mpr ⟨host, hh, rfl, ?_, ?_, ?_, rfl⟩⟩
  · exact isHeaderValue_of_allVisible t.allVisible_amzDate
  · exact isHeaderValue_of_allVisible (allVisible_hostValue hh)
  · rw [isHeaderValue_authorization, hk, hr, hs]
    rfl

/-- The four fields that signing sets have one value each, and the others are as they were. -/
theorem values_setFields (h : Headers) (amzDate host authorization name : String) :
    (setFields h amzDate host authorization).values name =
      if name = "authorization" then [utf8 authorization]
      else if name = "host" then [utf8 host]
      else if name = "x-amz-content-sha256" then [utf8 Canonical.unsignedPayload]
      else if name = "x-amz-date" then [utf8 amzDate]
      else h.values name := by
  simp only [setFields, Headers.values_set]

end Signer
end GatewayAdmin
