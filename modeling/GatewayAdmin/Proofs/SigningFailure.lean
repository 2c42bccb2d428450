import GatewayAdmin.Proofs.RepeatedSigning
import GatewayAdmin.Proofs.Utf8Text

/-! When signing fails. The date and the host are always header values, so of the three values that
are checked only the authorization can be refused, and what is refused in it are octets of the
access key, the region or the service. No field is set before all the values are checked. -/
namespace GatewayAdmin

/-- The control octets but for the tab: no header value has one. -/
def isControlOctet (b : UInt8) : Bool := (b < 0x20 && b ≠ 0x09) || b = 0x7F

/-- Some octet of the text is a control octet other than the tab. -/
def HasControlOctet (s : String) : Prop := ∃ b ∈ Text.utf8 s, isControlOctet b = true

instance (s : String) : Decidable (HasControlOctet s) :=
  List.decidableBEx (isControlOctet · = true) (Text.utf8 s)

theorem isControlOctet_of_high {b : UInt8} (h : 0x80 ≤ b.toNat) : isControlOctet b = false := by
  have hlow : ¬b < 0x20 := Text.not_lt_of_toNat_le (show 0x20 ≤ b.toNat by omega)
  have hdelete : b ≠ 0x7F := by
    rintro rfl
    exact absurd h (by decide)
  simp [isControlOctet, hlow, hdelete]

/-- Whether a header value may have a character is seen from its octets. -/
theorem isHeaderValueChar_eq (c : Char) :
    isHeaderValueChar c = (String.utf8EncodeChar c).all (!isControlOctet ·) := by
  by_cases hascii : c.toNat < 0x80
  · have hall : ∀ n < 0x80,
        isHeaderValueChar (Char.ofNat n) = !isControlOctet (UInt8.ofNat n) := by decide
    have hc := hall c.toNat hascii
    rw [Char.ofNat_toNat] at hc
    rw [Text.utf8EncodeChar_of_ascii hascii, hc]
    simp
  · have hchar : isHeaderValueChar c = true := by
      simp only [isHeaderValueChar, Bool.or_eq_true, Bool.and_eq_true, decide_eq_true_eq]
      omega
    have hoctets : (String.utf8EncodeChar c).all (!isControlOctet ·) = true := by
      refine List.all_eq_true.mpr fun b hb => ?_
      rw [isControlOctet_of_high (Text.high_of_mem_utf8EncodeChar (by omega) b hb)]
      rfl
    rw [hchar, hoctets]

theorem isHeaderValue_eq_false_iff {s : String} :
    isHeaderValue s = false ↔ HasControlOctet s := by
  have hall : isHeaderValue s = (Text.utf8 s).all (!isControlOctet ·) := by
    rw [isHeaderValue, Text.utf8, Text.utf8Chars, List.all_flatMap]
    exact congrArg _ (funext isHeaderValueChar_eq)
  rw [hall, List.all_eq_false]
  simp [HasControlOctet]

namespace Signer

/-- The URI names no host that a request could be signed for. -/
def LacksHost (uri : Uri) : Prop := uri.host? = none ∨ uri.host? = some ""

/-- Some text that goes into the authorization as it is has a control octet. -/
def Unwritable (s : Signer) (accessKey : String) : Prop :=
  HasControlOctet accessKey ∨ HasControlOctet s.region ∨ HasControlOctet s.service

/-- One header field of the request takes its new value. -/
def setField (name value : String) : ExceptT SigningError (StateM Request) Unit :=
  modify fun r => { r with headers := r.headers.set name (Text.utf8 value) }

/-- Signing as steps on a request that is changed in place: where a step fails, the request is what
the steps before it have left. -/
def signInPlace (s : Signer) (c : Credentials) (t : Instant) :
    ExceptT SigningError (StateM Request) Signed := do
  let r ← get
  match hostValue? r.uri with
  | none => throw (.unresolvableUri r.uri.toText)
  | some host =>
    let signed := s.texts c r.method r.uri ⟨host, Canonical.unsignedPayload, t.amzDate⟩ t.dateStamp
    MonadExcept.ofExcept (checkValue "x-amz-date" t.amzDate)
    MonadExcept.ofExcept (checkValue "host" host)
    MonadExcept.ofExcept (checkValue "authorization" signed.authorization)
    setField "x-amz-date" t.amzDate
    setField "x-amz-content-sha256" Canonical.unsignedPayload
    setField "host" host
    setField "authorization" signed.authorization
    return signed

theorem run_get_bind (f : Request → ExceptT SigningError (StateM Request) Signed) (r : Request) :
    (get >>= f).run.run r = (f r).run.run r := rfl

theorem run_ofExcept_bind (checked : Except SigningError Unit)
    (f : Unit → ExceptT SigningError (StateM Request) Signed) (r : Request) :
    (MonadExcept.ofExcept checked >>= f).run.run r =
      match checked with
      | .ok u => (f u).run.run r
      | .error e => (.error e, r) := by
  cases checked with
  | error e => rfl
  | ok u => rfl

section
variable (s : Signer) (r : Request) (c : Credentials) (t : Instant)

/-- The steps come to the same: a failed step finds the request as it was, since the four that
change it come last and do not fail. -/
theorem run_signInPlace : (s.signInPlace c t).run.run r = SigningCall.run ⟨s, c, t⟩ r := by
  rw [SigningCall.run, sign, signInPlace, run_get_bind]
  cases hostValue? r.uri with
  | none => rfl
  | some host =>
    dsimp only
    generalize s.texts c r.method r.uri _ t.dateStamp = signed
    rw [run_ofExcept_bind]
    cases checkValue "x-amz-date" t.amzDate with
    | error e => rfl
    | ok _ =>
      dsimp only
      rw [run_ofExcept_bind]
      cases checkValue "host" host with
      | error e => rfl
      | ok _ =>
        dsimp only
        rw [run_ofExcept_bind]
        cases checkValue "authorization" signed.authorization with
        | error e => rfl
        | ok _ => rfl

theorem lacksHost_iff {uri : Uri} : LacksHost uri ↔ hostValue? uri = none :=
  hostValue?_eq_none_iff.symm

theorem not_unwritable_iff {accessKey : String} : ¬s.Unwritable accessKey ↔
    (isHeaderValue accessKey && isHeaderValue s.region && isHeaderValue s.service) = true := by
  simp only [Unwritable, ← isHeaderValue_eq_false_iff, not_or, Bool.not_eq_false,
    Bool.and_eq_true, and_assoc]

/-- With a host in the URI signing comes down to the check of the authorization. -/
theorem sign_error_of_unwritable {host : String} (hh : hostValue? r.uri = some host)
    (hw : s.Unwritable c.accessKey) :
    s.sign r c t = .error (.invalidHeaderValue "authorization") := by
  have hdate : checkValue "x-amz-date" t.amzDate = .ok () :=
    checkValue_eq_ok_iff.mpr (isHeaderValue_of_allVisible t.allVisible_amzDate)
  have hhost : checkValue "host" host = .ok () :=
    checkValue_eq_ok_iff.mpr (isHeaderValue_of_allVisible (allVisible_hostValue hh))
  have hkey : ¬(isHeaderValue c.accessKey && isHeaderValue s.region && isHeaderValue s.service) =
      true := fun h => (not_unwritable_iff s).mpr h hw
  rw [sign, hh]
  dsimp only
  rw [hdate, hhost, checkValue, isHeaderValue_authorization, if_neg hkey]
  rfl

/-- The three ways in which signing ends. -/
theorem sign_cases :
    (LacksHost r.uri ∧ s.sign r c t = .error (.unresolvableUri r.uri.toText)) ∨
    (¬LacksHost r.uri ∧ s.Unwritable c.accessKey ∧
      s.sign r c t = .error (.invalidHeaderValue "authorization")) ∨
    (¬LacksHost r.uri ∧ ¬s.Unwritable c.accessKey ∧
      ∃ signed r', s.sign r c t = .ok (signed, r')) := by
  rw [lacksHost_iff]
  cases hh : hostValue? r.uri with
  | none => exact .inl ⟨rfl, sign_eq_unresolvable_iff.mpr ⟨hh, rfl⟩⟩
  | some host =>
    by_cases hw : s.Unwritable c.accessKey
    · exact .inr (.inl ⟨Option.some_ne_none host, hw, sign_error_of_unwritable s r c t hh hw⟩)
    · have hvalues := (not_unwritable_iff s).mp hw
      simp only [Bool.and_eq_true] at hvalues
      obtain ⟨⟨hkey, hregion⟩, hservice⟩ := hvalues
      have hsucceeds := sign_succeeds s r c t hh hkey hregion hservice
      exact .inr (.inr ⟨Option.some_ne_none host, hw, hsucceeds⟩)

theorem sign_eq_error_iff {e : SigningError} : s.sign r c t = .error e ↔
    (LacksHost r.uri ∧ e = .unresolvableUri r.uri.toText) ∨
    (¬LacksHost r.uri ∧ s.Unwritable c.accessKey ∧ e = .invalidHeaderValue "authorization") := by
  obtain ⟨hl, h⟩ | ⟨hl, hw, h⟩ | ⟨hl, hw, signed, r', h⟩ := sign_cases s r c t
  · simp [h, hl, eq_comm]
  · simp [h, hl, hw, eq_comm]
  · simp [h, hl, hw]

/-- Signing says that the URI is unresolvable just when it has no host or an empty one. Otherwise
it says that the value of the authorization is invalid, and never that of another field, just when
the access key, the region or the service has a control octet other than the tab; otherwise it
succeeds. The secret has no part in that. Done in place it does the same, and where it fails it
leaves the request as it was. -/
theorem sign_fails_exactly :
    (∀ text, s.sign r c t = .error (.unresolvableUri text) ↔
      LacksHost r.uri ∧ text = r.uri.toText) ∧
    (∀ name, s.sign r c t = .error (.invalidHeaderValue name) ↔
      ¬LacksHost r.uri ∧ s.Unwritable c.accessKey ∧ name = "authorization") ∧
    ((∃ signed r', s.sign r c t = .ok (signed, r')) ↔
      ¬LacksHost r.uri ∧ ¬s.Unwritable c.accessKey) ∧
    (∀ secret e, s.sign r { c with secretKey := secret } t = .error e ↔ s.sign r c t = .error e) ∧
    (s.signInPlace c t).run.run r =
      match s.sign r c t with
      | .ok (signed, r') => (.ok signed, r')
      | .error e => (.error e, r) := by
  refine ⟨?_, ?_, ?_, ?_, run_signInPlace s r c t⟩
  · intro text
    simp [sign_eq_error_iff]
  · intro name
    simp [sign_eq_error_iff]
  · obtain ⟨hl, h⟩ | ⟨hl, hw, h⟩ | ⟨hl, hw, signed, r', h⟩ := sign_cases s r c t
    · simp [h, hl]
    · simp [h, hl, hw]
    · simp [h, hl, hw]
  · intro secret e
    -- What makes signing fail reads the access key of the pair alone.
    rw [sign_eq_error_iff, sign_eq_error_iff]

end
end Signer
end GatewayAdmin
