import GatewayAdmin.Client
import GatewayAdmin.Proofs.Signing
import GatewayAdmin.Proofs.UriReading

/-! What the check of an endpoint gives to the calls that follow it. An accepted endpoint is the
text of an absolute URI, and a call is written behind it: the scheme and the authority of a call are
those of the endpoint, and so is the host that is signed, or the lack of one. -/
namespace GatewayAdmin

namespace Uri

theorem utf8ByteSize_le_of_parse? {s : String} {uri : Uri} (h : parse? s = some uri) :
    s.utf8ByteSize ≤ maxBytes := by
  unfold parse? at h
  split_ifs at h with hlen
  omega

/-- Only an absolute URI has a scheme. -/
theorem scheme?_isSome_iff {uri : Uri} :
    uri.scheme?.isSome = true ↔
      ∃ scheme authority path query, uri = .absoluteForm scheme authority path query := by
  cases uri <;> simp [scheme?]

/-- What can be read behind an absolute URI does not change its scheme and its authority. -/
theorem IsAbsolute.parse?_append {s more : String} {name tail : List Char} {authority : Authority}
    {uri : Uri} (h : IsAbsolute s.toList name authority tail)
    (hmore : ∀ c ∈ more.toList.head?, isAuthorityEnd c = true)
    (hp : parse? (s ++ more) = some uri) :
    ∃ p q, readPathQuery? (tail ++ more.toList) = some (p, q) ∧
      uri = .absoluteForm (.ofName name) authority (if p = "" then "/" else p) q := by
  have habs := h.append hmore
  rw [habs.parse?_eq String.toList_append (utf8ByteSize_le_of_parse? hp)] at hp
  obtain ⟨⟨p, q⟩, hread, rfl⟩ := Option.map_eq_some_iff.mp hp
  exact ⟨p, q, hread, rfl⟩

end Uri

namespace AdminUrl

/-- What a call writes behind the endpoint. -/
def callText (resource query : String) : String :=
  root ++ resource ++ separator resource query ++ query

theorem ofParts_eq_append (endpoint resource query : String) :
    ofParts endpoint resource query = endpoint ++ callText resource query := by
  simp only [ofParts, callText, String.append_assoc]

theorem head?_callText (resource query : String) :
    ∀ c ∈ (callText resource query).toList.head?, Uri.isAuthorityEnd c = true := by
  simp [callText, root, Uri.isAuthorityEnd]

end AdminUrl

namespace Client

/-- The only way in which a configuration is accepted. -/
theorem ofConfig_eq_ok_iff {config : Config} {client : Client} :
    ofConfig config = .ok client ↔
      Text.allBlank config.endpoint = false ∧ Text.allBlank config.accessKey = false ∧
      Text.allBlank config.secretKey = false ∧ isEndpoint (trimEndpoint config.endpoint) = true ∧
      client =
        ⟨trimEndpoint config.endpoint, config.credentials, ⟨config.region, config.service⟩⟩ := by
  unfold ofConfig
  dsimp only
  split_ifs with endpoint access secret valid
  · simp [endpoint]
  · simp [access]
  · simp [secret]
  · simp only [endpoint, access, secret, valid, Except.ok.injEq, true_and]
    exact eq_comm
  · simp [valid]

theorem isEndpoint_iff {s : String} :
    isEndpoint s = true ↔ ∃ scheme authority path query,
      Uri.parse? s = some (.absoluteForm scheme authority path query) := by
  unfold isEndpoint
  rw [Option.any_eq_true]
  simp only [Bool.and_eq_true, Uri.scheme?_isSome_iff]
  constructor
  · rintro ⟨uri, hp, ⟨scheme, authority, path, query, rfl⟩, -⟩
    exact ⟨scheme, authority, path, query, hp⟩
  · rintro ⟨scheme, authority, path, query, hp⟩
    exact ⟨_, hp, ⟨scheme, authority, path, query, rfl⟩, rfl⟩

/-- The parts of an accepted endpoint. -/
theorem exists_isAbsolute {config : Config} {client : Client} (h : ofConfig config = .ok client) :
    ∃ name authority tail p q, Uri.IsAbsolute client.endpoint.toList name authority tail ∧
      Uri.readPathQuery? tail = some (p, q) ∧
      Uri.parse? client.endpoint =
        some (.absoluteForm (.ofName name) authority (if p = "" then "/" else p) q) := by
  obtain ⟨-, -, -, hendpoint, rfl⟩ := ofConfig_eq_ok_iff.mp h
  obtain ⟨scheme, authority, path, query, hp⟩ := isEndpoint_iff.mp hendpoint
  obtain ⟨-, name, tail, p, habs, rfl, hread, rfl⟩ := Uri.parse?_eq_absoluteForm_iff.mp hp
  exact ⟨name, authority, tail, p, query, habs, hread, hp⟩

theorem signedRequest_eq_ok_iff {c : Client} {method : Method} {resource : String}
    {args : Arguments} {time : Instant} {request : Request} :
    c.signedRequest method resource args time = .ok request ↔
      ∃ uri signed, Uri.parse? (AdminUrl.ofParts c.endpoint resource args.encode) = some uri ∧
        c.signer.sign ⟨method, uri, Headers.empty⟩ c.credentials time = .ok (signed, request) := by
  unfold signedRequest
  dsimp only
  cases Uri.parse? (AdminUrl.ofParts c.endpoint resource args.encode) with
  | none => simp
  | some uri =>
    cases hs : c.signer.sign ⟨method, uri, Headers.empty⟩ c.credentials time with
    | error e => simp [hs]
    | ok out =>
      obtain ⟨signed, r⟩ := out
      simp [hs]

theorem signedRequest_eq_unresolvable_iff {c : Client} {method : Method} {resource text : String}
    {args : Arguments} {time : Instant} :
    c.signedRequest method resource args time = .error (.signing (.unresolvableUri text)) ↔
      ∃ uri, Uri.parse? (AdminUrl.ofParts c.endpoint resource args.encode) = some uri ∧
        Signer.hostValue? uri = none ∧ text = uri.toText := by
  unfold signedRequest
  dsimp only
  cases Uri.parse? (AdminUrl.ofParts c.endpoint resource args.encode) with
  | none => simp
  | some uri =>
    have hs := @Signer.sign_eq_unresolvable_iff c.signer ⟨method, uri, Headers.empty⟩ c.credentials
      time text
    simp only [Option.some.injEq, exists_eq_left']
    rw [← hs]
    cases c.signer.sign ⟨method, uri, Headers.empty⟩ c.credentials time <;> simp

/-- The URI of a call has the scheme and the authority of the endpoint. -/
theorem callUri_parts {c : Client} {name tail : List Char} {authority : Authority} {uri : Uri}
    {resource query : String} (h : Uri.IsAbsolute c.endpoint.toList name authority tail)
    (hp : Uri.parse? (AdminUrl.ofParts c.endpoint resource query) = some uri) :
    ∃ p q, Uri.readPathQuery? (tail ++ (AdminUrl.callText resource query).toList) = some (p, q) ∧
      uri = .absoluteForm (.ofName name) authority (if p = "" then "/" else p) q := by
  rw [AdminUrl.ofParts_eq_append] at hp
  exact h.parse?_append (AdminUrl.head?_callText resource query) hp

/-- An accepted endpoint has a host, but it may be the empty one: then, and only then, whatever the
call is, its URI has no host to sign for. -/
theorem signedRequest_unresolvable_iff {config : Config} {client : Client}
    (h : ofConfig config = .ok client) (method : Method) (resource : String) (args : Arguments)
    (time : Instant) :
    ∃ host, (Uri.parse? client.endpoint).bind Uri.host? = some host ∧
      ((∃ text, client.signedRequest method resource args time =
          .error (.signing (.unresolvableUri text))) ↔
        host = "" ∧
          (Uri.parse? (AdminUrl.ofParts client.endpoint resource args.encode)).isSome = true) := by
  obtain ⟨name, authority, tail, p, q, habs, -, hendpoint⟩ := exists_isAbsolute h
  refine ⟨authority.host, by rw [hendpoint]; rfl, ?_⟩
  simp only [signedRequest_eq_unresolvable_iff, Signer.hostValue?_eq_none_iff]
  constructor
  · rintro ⟨text, uri, hp, hhost, -⟩
    obtain ⟨p', q', -, rfl⟩ := callUri_parts habs hp
    simp only [Uri.host?, Uri.authority?, Option.map_some, reduceCtorEq, Option.some.injEq,
      false_or] at hhost
    exact ⟨hhost, by simp [hp]⟩
  · rintro ⟨hhost, hsome⟩
    obtain ⟨uri, hp⟩ := Option.isSome_iff_exists.mp hsome
    obtain ⟨p', q', -, rfl⟩ := callUri_parts habs hp
    exact ⟨_, _, hp, .inr (by simp [Uri.host?, Uri.authority?, hhost]), rfl⟩

/-- A bracketed host with user information and a port is resolved, although the call has a host of
its own to offer behind it. -/
theorem signedRequest_resolvable_bracketed :
    ∃ client,
      ofConfig { endpoint := " http://u@[::1]:8080/s3/ ", accessKey := "k", secretKey := "s" } =
        .ok client ∧
      ¬ ∃ text, client.signedRequest .get "//@x" .admin .epoch =
        .error (.signing (.unresolvableUri text)) := by
  have h :
      ofConfig { endpoint := " http://u@[::1]:8080/s3/ ", accessKey := "k", secretKey := "s" } =
        .ok ⟨"http://u@[::1]:8080/s3", ⟨"k", "s"⟩, {}⟩ := by decide
  obtain ⟨host, hhost, hiff⟩ := signedRequest_unresolvable_iff h .get "//@x" .admin .epoch
  have hsome : (some "[::1]" : Option String) = some host := by
    rw [← hhost]
    decide
  refine ⟨_, h, fun hfail => ?_⟩
  have hempty := (hiff.mp hfail).1
  rw [hempty] at hsome
  exact absurd hsome (by decide)

/-- A port without a host passes for a host, and every call on it fails. -/
theorem accepted_endpoint_unresolvable :
    ∃ client,
      ofConfig { endpoint := "http://:80", accessKey := "k", secretKey := "s" } = .ok client ∧
      client.signedRequest .get "/info" .admin .epoch =
        .error (.signing (.unresolvableUri "http://:80/admin/info?format=json")) := by
  refine ⟨⟨"http://:80", ⟨"k", "s"⟩, {}⟩, by decide, by decide⟩

end Client
end GatewayAdmin
