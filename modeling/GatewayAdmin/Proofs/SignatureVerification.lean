import GatewayAdmin.Proofs.Signing
import GatewayAdmin.Proofs.Utf8Text

/-! The two ends of a signature agree. A gateway that receives a signed request has the request's
own header fields to go by, and knows the secret of the access key; what it computes from them is
what the signer computed. -/
namespace GatewayAdmin.Verifier

open Text

/-- The date of the scope is the part of the time before the `T`. -/
def dateStampOf (amzDate : String) : String := String.ofList (amzDate.toList.takeWhile (· ≠ 'T'))

/-- `none` when one of the signed header fields is missing or no text. -/
def expected? (s : Signer) (c : Credentials) (r : Request) : Option Signed := do
  let host ← (r.headers.get? "host").bind ofUtf8?
  let contentSha256 ← (r.headers.get? "x-amz-content-sha256").bind ofUtf8?
  let amzDate ← (r.headers.get? "x-amz-date").bind ofUtf8?
  let scope := Scope.credentialScope (dateStampOf amzDate) s.region s.service
  let canonicalRequest := Canonical.request r.method.name r.uri ⟨host, contentSha256, amzDate⟩
  let hash := Digest.sha256Hex (utf8 canonicalRequest)
  let stringToSign := Scope.stringToSign amzDate scope hash
  let key := Scope.signingKey c.secretKey (dateStampOf amzDate) s.region s.service
  let signature := Scope.signature key stringToSign
  return ⟨canonicalRequest, stringToSign, signature,
    Signer.authorizationValue c.accessKey scope signature⟩

def accepts (s : Signer) (c : Credentials) (r : Request) : Bool :=
  ((expected? s c r).map (·.authorization)).any fun a => r.headers.values "authorization" = [utf8 a]

theorem dateStampOf_amzDate (t : Instant) : dateStampOf t.amzDate = t.dateStamp := by
  rw [dateStampOf, Instant.takeWhile_amzDate, Instant.dateStamp]

/-- A verifier computes the signer's texts from the values that it finds in the request. -/
theorem expected?_of_values {s : Signer} {c : Credentials} {r : Request}
    {v : Canonical.SignedValues} (host : r.headers.values "host" = [utf8 v.host])
    (content : r.headers.values "x-amz-content-sha256" = [utf8 v.contentSha256])
    (date : r.headers.values "x-amz-date" = [utf8 v.amzDate]) :
    expected? s c r = some (s.texts c r.method r.uri v (dateStampOf v.amzDate)) := by
  simp only [expected?, Headers.get?, host, content, date, List.head?_cons, Option.bind_eq_bind,
    Option.bind_some, ofUtf8?_utf8]
  rfl

/-- From the fields that signing sets a verifier gets the values that were signed, whatever fields
there were before. -/
theorem expected?_setFields (s : Signer) (c : Credentials) (r : Request) (t : Instant)
    (host authorization : String) :
    expected? s c { r with headers := Signer.setFields r.headers t.amzDate host authorization } =
      some (s.texts c r.method r.uri ⟨host, Canonical.unsignedPayload, t.amzDate⟩ t.dateStamp) := by
  let v : Canonical.SignedValues := ⟨host, Canonical.unsignedPayload, t.amzDate⟩
  have hsent := Signer.values_setFields r.headers t.amzDate host authorization
  rw [expected?_of_values (v := v) (by simp [hsent, v]) (by simp [hsent, v]) (by simp [hsent, v]),
    dateStampOf_amzDate]

theorem accepts_eq_true_iff {s : Signer} {c : Credentials} {r : Request} :
    accepts s c r = true ↔ ∃ signed, expected? s c r = some signed ∧
      r.headers.values "authorization" = [utf8 signed.authorization] := by
  unfold accepts
  cases expected? s c r with
  | none => simp
  | some signed => simp

/-- Whatever the request held before, the signed one is accepted, and it has everything that it
takes to compute its signature anew: the texts come out as the signer had them, and the one
authorization in the request is the computed one. -/
theorem signed_request_verifies {s : Signer} {r r' : Request} {c : Credentials} {t : Instant}
    {signed : Signed} (h : s.sign r c t = .ok (signed, r')) :
    accepts s c r' = true ∧ expected? s c r' = some signed ∧
      r'.headers.values "authorization" = [utf8 signed.authorization] ∧
      r'.method = r.method ∧ r'.uri = r.uri := by
  obtain ⟨host, -, hsigned, -, -, -, rfl⟩ := Signer.sign_eq_ok_iff.mp h
  have hexpected := expected?_setFields s c r t host signed.authorization
  rw [← hsigned] at hexpected
  have hsent : (Signer.setFields r.headers t.amzDate host signed.authorization).values
      "authorization" = [utf8 signed.authorization] := by
    simp [Signer.values_setFields]
  refine ⟨?_, hexpected, hsent, rfl, rfl⟩
  exact accepts_eq_true_iff.mpr ⟨signed, hexpected, hsent⟩

/-- A host with user information, brackets and a port, a leap second after the year 9999, and header
fields that were there before, one of them with octets that are no text. -/
theorem signed_request_verifies_spoofed : ∃ signed r',
    ({} : Signer).sign
      ⟨.get, .absoluteForm .https ⟨"u@[::1]:8443", by decide⟩ "/a%2f" (some "b&a=%z"),
        ⟨[("host", utf8 "spoofed"), ("authorization", [0xFF]), ("authorization", utf8 "stale")]⟩⟩
      ⟨"key", "secret"⟩ ⟨253402300859, 1000000000, by decide, by decide⟩ = .ok (signed, r') ∧
    accepts {} ⟨"key", "secret"⟩ r' = true ∧ expected? {} ⟨"key", "secret"⟩ r' = some signed ∧
    r'.headers.values "authorization" = [utf8 signed.authorization] := by
  obtain ⟨signed, r', h⟩ := Signer.sign_succeeds {}
    ⟨.get, .absoluteForm .https ⟨"u@[::1]:8443", by decide⟩ "/a%2f" (some "b&a=%z"),
      ⟨[("host", utf8 "spoofed"), ("authorization", [0xFF]), ("authorization", utf8 "stale")]⟩⟩
    ⟨"key", "secret"⟩ ⟨253402300859, 1000000000, by decide, by decide⟩
    (show _ = some "[::1]:8443" by decide) (by decide) (by decide) (by decide)
  obtain ⟨accepted, expected, sent, -, -⟩ := signed_request_verifies h
  exact ⟨signed, r', h, accepted, expected, sent⟩

end GatewayAdmin.Verifier
