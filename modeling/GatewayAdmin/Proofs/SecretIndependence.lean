import GatewayAdmin.Proofs.CallRuns
import GatewayAdmin.Proofs.SigningFailure

/-! Two runs of the same calls by clients that differ in the secret alone. They go side by side:
what the gateway is sent differs in the digits of signatures at most, and the callers see no
difference at all. -/
namespace GatewayAdmin

namespace Digest

/-- The digits of a digest as it is written. -/
def isHexChar (c : Char) : Bool := ('0' ≤ c && c ≤ '9') || ('a' ≤ c && c ≤ 'f')

theorem isHexChar_of_mem_hex {bs : List UInt8} {c : Char} (hc : c ∈ (hex bs).toList) :
    isHexChar c = true := by
  have hd : ∀ n < 16, isHexChar (Text.hexDigit n) = true := by decide
  obtain ⟨n, hn, rfl⟩ := exists_digit_of_mem_hex hc
  exact hd n hn

theorem length_hex (bs : List UInt8) : (hex bs).length = 2 * bs.length := by
  rw [hex, String.length_ofList]
  induction bs with
  | nil => rfl
  | cons b bs ih =>
    rw [List.flatMap_cons, List.length_append, ih, List.length_cons, hexByte]
    simp only [List.length_cons, List.length_nil]
    omega

end Digest

theorem Sha256.length_digest (bs : List UInt8) : (digest bs).length = 32 := by
  simp [digest, Chain.words, bigEndian]

namespace Scope

/-- Signatures are written with 64 lowercase hexadecimal digits. -/
def IsSignature (s : String) : Prop := s.length = 64 ∧ ∀ c ∈ s.toList, Digest.isHexChar c = true

theorem isSignature_signature (key : List UInt8) (text : String) :
    IsSignature (signature key text) := by
  refine ⟨?_, fun c hc => Digest.isHexChar_of_mem_hex hc⟩
  rw [signature, Digest.length_hex, Digest.hmacText, Digest.hmac, Sha256.length_digest]

end Scope

/-- Before the signature that ends it an authorization has nothing of the secret. -/
theorem Signer.exists_authorization_eq (s : Signer) {c c' : Credentials}
    (h : c.accessKey = c'.accessKey) (method : Method) (uri : Uri) (v : Canonical.SignedValues)
    (dateStamp : String) : ∃ stem,
      (s.texts c method uri v dateStamp).authorization =
        stem ++ (s.texts c method uri v dateStamp).signature ∧
      (s.texts c' method uri v dateStamp).authorization =
        stem ++ (s.texts c' method uri v dateStamp).signature := by
  refine ⟨Scope.algorithm ++ " Credential=" ++ c.accessKey ++ "/" ++
    Scope.credentialScope dateStamp s.region s.service ++ ", SignedHeaders=" ++
      Canonical.signedHeaders ++ ", Signature=", rfl, ?_⟩
  rw [h]
  rfl

/-- Header fields of one name. An authorization ends in a signature, and before it both have the
same text; all other values are the same. -/
def AlikeFields (f g : String × List UInt8) : Prop :=
  f.1 = g.1 ∧
    if f.1 = "authorization" then
      ∃ stem a b, Scope.IsSignature a ∧ Scope.IsSignature b ∧ f.2 = Text.utf8 (stem ++ a) ∧
        g.2 = Text.utf8 (stem ++ b)
    else f.2 = g.2

/-- Requests that are the same but for the digits of their signatures. -/
structure Request.Alike (r r' : Request) : Prop where
  method : r.method = r'.method
  uri : r.uri = r'.uri
  headers : List.Forall₂ AlikeFields r.headers.fields r'.headers.fields

/-- The same error, or values in the relation. -/
inductive SameOutcome {ε α : Type} (R : α → α → Prop) : Except ε α → Except ε α → Prop
  | error (e : ε) : SameOutcome R (.error e) (.error e)
  | ok {a b : α} (h : R a b) : SameOutcome R (.ok a) (.ok b)

/-- Transports with the same responses to come that were sent alike requests. -/
structure Transport.Alike (t t' : Transport) : Prop where
  queue : t.queue = t'.queue
  sent : List.Forall₂ Request.Alike t.sent t'.sent

theorem Transport.Alike.send {t t' : Transport} {r r' : Request} (ht : t.Alike t')
    (hr : r.Alike r') :
    (t.send r).1 = (t'.send r').1 ∧ (t.send r).2.Alike (t'.send r').2 := by
  have hnext : t.nextResponse = t'.nextResponse := by
    rw [Transport.nextResponse, Transport.nextResponse, ht.queue]
  refine ⟨?_, ?_, ?_⟩
  · simp only [Transport.send, hnext]
  · simp only [Transport.send, ht.queue]
  · exact List.rel_append ht.sent (.cons hr .nil)

namespace Client

/-- The client with another secret. -/
def withSecret (c : Client) (secret : String) : Client :=
  { c with credentials := { c.credentials with secretKey := secret } }

section
variable (c : Client) (secret : String)

@[simp] theorem endpoint_withSecret : (c.withSecret secret).endpoint = c.endpoint := rfl

@[simp] theorem signer_withSecret : (c.withSecret secret).signer = c.signer := rfl

theorem sign_withSecret_eq_error_iff {r : Request} {time : Instant} {e : SigningError} :
    c.signer.sign r (c.withSecret secret).credentials time = .error e ↔
      c.signer.sign r c.credentials time = .error e := by
  rw [Signer.sign_eq_error_iff, Signer.sign_eq_error_iff]
  rfl

/-- The secret is an input of the signature alone, which ends the authorization. -/
theorem sign_alike (method : Method) (uri : Uri) (time : Instant) :
    SameOutcome (fun p p' => p.2.Alike p'.2)
      (c.signer.sign ⟨method, uri, .empty⟩ c.credentials time)
      (c.signer.sign ⟨method, uri, .empty⟩ (c.withSecret secret).credentials time) := by
  cases hs : c.signer.sign ⟨method, uri, .empty⟩ c.credentials time with
  | error e =>
    rw [(c.sign_withSecret_eq_error_iff secret).mpr hs]
    exact .error e
  | ok out =>
    cases hs' : c.signer.sign ⟨method, uri, .empty⟩ (c.withSecret secret).credentials time with
    | error e =>
      rw [(c.sign_withSecret_eq_error_iff secret).mp hs'] at hs
      contradiction
    | ok out' =>
      obtain ⟨host, hhost, hsigned, -, -, -, hr⟩ := Signer.sign_eq_ok_iff.mp hs
      obtain ⟨host', hhost', hsigned', -, -, -, hr'⟩ := Signer.sign_eq_ok_iff.mp hs'
      obtain rfl : host = host' := Option.some.inj (hhost.symm.trans hhost')
      have hauthorization : AlikeFields ("authorization", Text.utf8 out.1.authorization)
          ("authorization", Text.utf8 out'.1.authorization) := by
        have hkey : c.credentials.accessKey = (c.withSecret secret).credentials.accessKey := rfl
        obtain ⟨stem, hstem, hstem'⟩ := c.signer.exists_authorization_eq hkey method uri
          ⟨host, Canonical.unsignedPayload, time.amzDate⟩ time.dateStamp
        refine ⟨rfl, ?_⟩
        rw [if_pos rfl, hsigned, hsigned', hstem, hstem']
        exact ⟨stem, _, _, Scope.isSignature_signature _ _, Scope.isSignature_signature _ _,
          rfl, rfl⟩
      refine .ok ?_
      rw [hr, hr', Signer.setFields_empty, Signer.setFields_empty]
      refine ⟨rfl, rfl, ?_⟩
      have hsame (name : String) (value : List UInt8) (h : name ≠ "authorization") :
          AlikeFields (name, value) (name, value) := ⟨rfl, by rw [if_neg h]⟩
      exact .cons (hsame _ _ (by decide)) (.cons (hsame _ _ (by decide))
        (.cons (hsame _ _ (by decide)) (.cons hauthorization .nil)))

theorem signedRequest_alike (method : Method) (resource : String) (args : Arguments)
    (time : Instant) :
    SameOutcome Request.Alike (c.signedRequest method resource args time)
      ((c.withSecret secret).signedRequest method resource args time) := by
  simp only [signedRequest, endpoint_withSecret, signer_withSecret]
  cases Uri.parse? (AdminUrl.ofParts c.endpoint resource args.encode) with
  | none => exact .error _
  | some uri =>
    have h := c.sign_alike secret method uri time
    dsimp only
    generalize c.signer.sign _ c.credentials time = x at h ⊢
    generalize c.signer.sign _ (c.withSecret secret).credentials time = y at h ⊢
    cases h with
    | error e => exact .error _
    | ok halike => exact .ok halike

theorem request_alike (call : Operation × Instant) :
    SameOutcome Request.Alike (c.request call) ((c.withSecret secret).request call) := by
  unfold request
  cases call.1.arguments with
  | error e => exact .error _
  | ok args =>
    have h := c.signedRequest_alike secret call.1.method call.1.resource args call.2
    dsimp only
    generalize c.signedRequest _ _ args call.2 = x at h ⊢
    generalize (c.withSecret secret).signedRequest _ _ args call.2 = y at h ⊢
    cases h with
    | error e => exact .error _
    | ok halike => exact .ok halike

variable {t t' : Transport}

theorem perform_alike (ht : t.Alike t') (call : Operation × Instant) :
    (c.perform call.1 call.2 t).1 = ((c.withSecret secret).perform call.1 call.2 t').1 ∧
      (c.perform call.1 call.2 t).2.Alike ((c.withSecret secret).perform call.1 call.2 t').2 := by
  have h := c.request_alike secret call
  generalize hr : c.request call = x at h
  generalize hr' : (c.withSecret secret).request call = y at h
  cases h with
  | error e =>
    rw [perform_eq_of_error hr, perform_eq_of_error hr']
    exact ⟨rfl, ht⟩
  | ok halike =>
    obtain ⟨hanswer, hafter⟩ := ht.send halike
    rw [perform_eq_of_ok hr, perform_eq_of_ok hr', hanswer]
    exact ⟨rfl, hafter⟩

theorem performAll_alike (ht : t.Alike t') (calls : List (Operation × Instant)) :
    (c.performAll t calls).1 = ((c.withSecret secret).performAll t' calls).1 ∧
      (c.performAll t calls).2.Alike ((c.withSecret secret).performAll t' calls).2 := by
  induction calls generalizing t t' with
  | nil => exact ⟨rfl, ht⟩
  | cons call calls ih =>
    obtain ⟨hresult, hnext⟩ := c.perform_alike secret ht call
    obtain ⟨hresults, hlast⟩ := ih hnext
    simp only [performAll, hresult, hresults]
    exact ⟨trivial, hlast⟩

end

/-- An accepted configuration with another secret is accepted, if at all, as the same client with
that secret. -/
theorem ofConfig_withSecret {config : Config} {client client' : Client} {secret : String}
    (h : ofConfig config = .ok client)
    (h' : ofConfig { config with secretKey := secret } = .ok client') :
    client' = client.withSecret secret := by
  obtain ⟨-, -, -, -, rfl⟩ := ofConfig_eq_ok_iff.mp h
  obtain ⟨-, -, -, -, rfl⟩ := ofConfig_eq_ok_iff.mp h'
  rfl

/-- Two configurations that differ in the secret alone, and are both accepted, give clients that no
caller can tell apart: whatever is called, and whatever is answered, all results are the same, with
the errors and what they say, whatever the decoder says of the bodies that both are answered with,
and so are all requests up to the 64 hexadecimal digits of their signatures. Nothing that is shown
of the key pair or of the configuration tells the secrets apart either. -/
theorem performAll_hides_secret {config : Config} {client client' : Client} {secret : String}
    (h : ofConfig config = .ok client)
    (h' : ofConfig { config with secretKey := secret } = .ok client')
    (calls : List (Operation × Instant)) (queue : List Response) :
    let run := client.performAll (.ofQueue queue) calls
    let run' := client'.performAll (.ofQueue queue) calls
    run.1 = run'.1 ∧
    (∀ said : Nat → String,
      run.1.mapIdx (fun i result => result.mapError (CallError.message (said i))) =
        run'.1.mapIdx fun i result => result.mapError (CallError.message (said i))) ∧
    run.2.queue = run'.2.queue ∧ List.Forall₂ Request.Alike run.2.sent run'.2.sent ∧
    client.credentials.summary = client'.credentials.summary ∧
    config.summary = { config with secretKey := secret }.summary ∧
    Config.codec.encode config = Config.codec.encode { config with secretKey := secret } := by
  obtain rfl := ofConfig_withSecret h h'
  have hstart : (Transport.ofQueue queue).Alike (.ofQueue queue) := ⟨rfl, .nil⟩
  obtain ⟨hresults, hqueue, hsent⟩ := client.performAll_alike secret hstart calls
  exact ⟨hresults, fun said => congrArg _ hresults, hqueue, hsent, rfl, rfl, rfl⟩

/-- One call is answered with a refusal, and one is not sent. -/
theorem performAll_hides_secret_refused :
    let config : Config := { endpoint := "http://h", accessKey := "k", secretKey := "s" }
    let calls : List (Operation × Instant) := [(.getInfo, .epoch), (.removeUser {}, .epoch)]
    ∃ client client', ofConfig config = .ok client ∧
      ofConfig { config with secretKey := "t" } = .ok client' ∧
      (client.performAll (.ofQueue [⟨404, []⟩]) calls).1 =
        (client'.performAll (.ofQueue [⟨404, []⟩]) calls).1 ∧
      ∃ r r', (client.performAll (.ofQueue [⟨404, []⟩]) calls).2.sent = [r] ∧
        (client'.performAll (.ofQueue [⟨404, []⟩]) calls).2.sent = [r'] ∧ r.Alike r' := by
  intro config calls
  let client : Client := ⟨"http://h", ⟨"k", "s"⟩, {}⟩
  have h : ofConfig config = .ok client := by decide
  have h' : ofConfig { config with secretKey := "t" } = .ok (client.withSecret "t") := by decide
  obtain ⟨signed, r, hsign⟩ := Signer.sign_succeeds {}
    ⟨.get, .absoluteForm .http ⟨"h", by decide⟩ "/admin/info" (some "format=json"), .empty⟩
    ⟨"k", "s"⟩ .epoch (show _ = some "h" by decide) (by decide) (by decide) (by decide)
  have hsigned : client.signedRequest .get "/info" .admin .epoch = .ok r :=
    signedRequest_eq_ok_iff.mpr ⟨_, signed, by decide, hsign⟩
  have hinfo : client.request (.getInfo, .epoch) = .ok r :=
    request_eq_ok_iff.mpr ⟨.admin, rfl, hsigned⟩
  obtain ⟨e, hremove⟩ : ∃ e, client.request (.removeUser {}, .epoch) = .error e := ⟨_, rfl⟩
  have hsent : (client.performAll (.ofQueue [⟨404, []⟩]) calls).2.sent = [r] := by
    rw [transport_performAll (by simp [Transport.ofQueue, Response.HasStatus])]
    simp [Transport.after, Transport.ofQueue, requests, calls, hinfo, hremove, Except.toOption]
  obtain ⟨hresults, -, -, halike, -⟩ := performAll_hides_secret h h' calls [⟨404, []⟩]
  rw [hsent] at halike
  cases hsent' : ((client.withSecret "t").performAll (.ofQueue [⟨404, []⟩]) calls).2.sent with
  | nil => simp [hsent'] at halike
  | cons r' rest =>
    rw [hsent'] at halike
    obtain ⟨hr, hrest⟩ := List.forall₂_cons.mp halike
    obtain rfl := List.forall₂_nil_left_iff.mp hrest
    exact ⟨client, client.withSecret "t", h, h', hresults, r, r', hsent, hsent', hr⟩

end Client
end GatewayAdmin
