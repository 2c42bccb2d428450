import GatewayAdmin.Proofs.AcceptedEndpoint
import GatewayAdmin.Proofs.AdminCallUrl
import GatewayAdmin.Proofs.OperationArguments

/-! Where the requests of operations go. The endpoint is put before the call as it is, so the call
is in the path and in the query of the URI exactly when the endpoint itself ends in its path. -/
namespace GatewayAdmin

namespace Uri

/-- What reading takes for the path and for the query. -/
theorem readPathQuery?_cases {cs : List Char} {p : String} {q : Option String}
    (h : readPathQuery? cs = some (p, q)) :
    p = String.ofList (cs.takeWhile (!isPathEnd ·)) ∧
      ∀ rest, cs.dropWhile (!isPathEnd ·) = '?' :: rest →
        q = some (String.ofList (rest.takeWhile (· ≠ '#'))) := by
  unfold readPathQuery? at h
  dsimp only at h
  split_ifs at h with hp
  split at h
  · next r hr =>
    obtain ⟨query, hq, heq⟩ := Option.map_eq_some_iff.mp h
    obtain ⟨rfl, rfl⟩ : String.ofList (cs.takeWhile (!isPathEnd ·)) = p ∧ some query = q := by
      simpa using heq
    refine ⟨rfl, fun rest hrest => ?_⟩
    obtain rfl : r = rest := by simpa [hr] using hrest
    unfold readQuery? at hq
    dsimp only at hq
    split_ifs at hq with hall
    rw [hq]
  · next hno =>
    obtain ⟨rfl, rfl⟩ : String.ofList (cs.takeWhile (!isPathEnd ·)) = p ∧ none = q := by
      simpa using h
    exact ⟨rfl, fun rest hrest => absurd hrest (hno rest)⟩

/-- Behind a list in which no path ends, a path and a query are read as they stand there. -/
theorem readPathQuery?_append_query {cs query : List Char} {p : String} {q : Option String}
    (hend : ∀ c ∈ cs, isPathEnd c = false) (hquery : '#' ∉ query)
    (h : readPathQuery? (cs ++ '?' :: query) = some (p, q)) :
    p = String.ofList cs ∧ q = some (String.ofList query) := by
  have hcs : ∀ c ∈ cs, (!isPathEnd c) = true := by simpa using hend
  have hmark : isPathEnd '?' = true := by decide
  have hq : ∀ c ∈ query, decide (c ≠ '#') = true :=
    fun c hc => decide_eq_true (ne_of_mem_of_not_mem hc hquery)
  obtain ⟨hp, hrest⟩ := readPathQuery?_cases h
  constructor
  · rw [hp, List.takeWhile_append_of_pos hcs]
    simp [hmark]
  · rw [hrest query (by rw [List.dropWhile_append_of_pos hcs]; simp [hmark]),
      List.takeWhile_eq_self_iff.mpr hq]

/-- What is put behind the end of a path is no part of it. -/
theorem readPathQuery?_append_path {cs more : List Char} {p p' : String} {q q' : Option String}
    (hend : ∃ c ∈ cs, isPathEnd c = true) (h : readPathQuery? cs = some (p, q))
    (h' : readPathQuery? (cs ++ more) = some (p', q')) : p' = p := by
  obtain ⟨c, hc, hmark⟩ := hend
  rw [(readPathQuery?_cases h).1, (readPathQuery?_cases h').1, List.takeWhile_append]
  split_ifs with hlen
  · have hall := List.takeWhile_eq_self_iff.mp
      ((List.takeWhile_prefix (!isPathEnd ·)).eq_of_length hlen) c hc
    simp [hmark] at hall
  · rfl

theorem not_isPathEnd_of_readPathQuery? {cs : List Char} {p : String} {q : Option String}
    (h : readPathQuery? cs = some (p, q)) : ∀ c ∈ p.toList, isPathEnd c = false := by
  intro c hc
  rw [(readPathQuery?_cases h).1, String.toList_ofList] at hc
  simpa using List.mem_takeWhile_imp hc

/-- Neither a scheme name nor an authority holds a mark that ends a path. -/
theorem IsAbsolute.mem_iff_of_isPathEnd {text name tail : List Char} {authority : Authority}
    (h : IsAbsolute text name authority tail) {c : Char} (hc : isPathEnd c = true) :
    c ∈ text ↔ c ∈ tail := by
  have hmarks : c = '?' ∨ c = '#' := by simpa [isPathEnd] using hc
  have hname : c ∉ name := by
    refine Text.not_mem_of_class h.name_chars ?_
    rcases hmarks with rfl | rfl <;> decide
  have hauthority : c ∉ authority.text.toList := by
    intro hm
    have hend := authority.not_isAuthorityEnd c hm
    rcases hmarks with rfl | rfl <;> exact absurd hend (by decide)
  rw [h.text_eq]
  rcases hmarks with rfl | rfl <;> simp [hname, hauthority]

end Uri

namespace AdminUrl

open Text

/-- The part of a resource that is a path. -/
def pathPart (resource : String) : String := String.ofList (splitFirst '?' resource.toList).1

/-- The sub-resource of a resource, if it names one. -/
def subresource? (resource : String) : Option String :=
  (splitFirst '?' resource.toList).2.map String.ofList

/-- The query of a call: the sub-resource, and then the encoded arguments. -/
def queryText (resource query : String) : String :=
  (subresource? resource).elim "" (· ++ "&") ++ query

theorem callText_eq (resource : String) {query : String} (hq : query ≠ "") :
    callText resource query =
      root ++ pathPart resource ++ "?" ++ queryText resource query := by
  have hcut := splitFirst_append_elim '?' resource.toList
  have hno := not_mem_splitFirst '?' resource.toList
  rw [← String.toList_inj, callText, separator, if_neg hq, queryText, subresource?, pathPart]
  cases hsub : (splitFirst '?' resource.toList).2 with
  | none =>
    rw [hsub, Option.elim_none, List.append_nil] at hcut
    rw [hcut] at hno
    simp [hno, hcut]
  | some sub =>
    rw [hsub, Option.elim_some] at hcut
    have hmem : '?' ∈ resource.toList := by rw [← hcut]; simp
    simp only [String.toList_append, List.contains_iff_mem, hmem, if_true, Option.map_some,
      Option.elim_some, String.toList_ofList]
    conv_lhs => rw [← hcut]
    simp

theorem not_mem_pathPart (resource : String) : '?' ∉ (pathPart resource).toList := by
  simpa [pathPart] using not_mem_splitFirst '?' resource.toList

theorem mem_of_mem_pathPart {resource : String} {c : Char} (h : c ∈ (pathPart resource).toList) :
    c ∈ resource.toList := by
  rw [← splitFirst_append_elim '?' resource.toList]
  rw [pathPart, String.toList_ofList] at h
  exact List.mem_append_left _ h

theorem mem_of_mem_subresource? {resource sub : String} (hsub : subresource? resource = some sub)
    {c : Char} (h : c ∈ sub.toList) : c ∈ resource.toList := by
  obtain ⟨cs, hcs, rfl⟩ := Option.map_eq_some_iff.mp hsub
  rw [← splitFirst_append_elim '?' resource.toList, hcs]
  rw [String.toList_ofList] at h
  simp [h]

theorem hash_not_mem_queryText {resource query : String} (hr : '#' ∉ resource.toList)
    (hq : '#' ∉ query.toList) : '#' ∉ (queryText resource query).toList := by
  rw [queryText]
  cases hsub : subresource? resource with
  | none => simpa using hq
  | some sub =>
    have hs : '#' ∉ sub.toList := fun h => hr (mem_of_mem_subresource? hsub h)
    simp [hs, hq]

theorem hash_not_mem_encode (args : Arguments) : '#' ∉ args.encode.toList := by
  rw [toList_encode]
  intro h
  rcases mem_of_mem_intercalate h with h | ⟨field, hf, h⟩
  · simp at h
  · obtain ⟨a, -, rfl⟩ := List.mem_map.mp hf
    exact absurd (isFieldChar_of_mem_pairChars h) (by decide)

/-- The call is all there: its path at the end of the path, its query as the query. -/
structure IsTarget (uri : Uri) (endpoint resource query : String) : Prop where
  path_eq : uri.path = Uri.afterAuthority endpoint ++ root ++ pathPart resource
  query_eq : uri.query? = some (queryText resource query)

section Target

variable {endpoint resource query : String} {name tail : List Char} {authority : Authority}
  {uri : Uri}

theorem isTarget_of_unmarked (habs : Uri.IsAbsolute endpoint.toList name authority tail)
    (hp : Uri.parse? (ofParts endpoint resource query) = some uri) (hne : query ≠ "")
    (hr : '#' ∉ resource.toList) (hq : '#' ∉ query.toList)
    (htail : ∀ c ∈ tail, Uri.isPathEnd c = false) : IsTarget uri endpoint resource query := by
  rw [ofParts_eq_append] at hp
  obtain ⟨p, q, hread, rfl⟩ := habs.parse?_append (head?_callText resource query) hp
  have hpath : ∀ c ∈ tail ++ (root.toList ++ (pathPart resource).toList),
      Uri.isPathEnd c = false := by
    have hroot : ∀ c ∈ root.toList, Uri.isPathEnd c = false := by simp [root, Uri.isPathEnd]
    have hpart : ∀ c ∈ (pathPart resource).toList, Uri.isPathEnd c = false := by
      intro c hc
      have hmark : c ≠ '?' := ne_of_mem_of_not_mem hc (not_mem_pathPart resource)
      have hhash : c ≠ '#' := ne_of_mem_of_not_mem (mem_of_mem_pathPart hc) hr
      simp [Uri.isPathEnd, hmark, hhash]
    simp only [List.forall_mem_append]
    exact ⟨htail, hroot, hpart⟩
  have htext : tail ++ (callText resource query).toList =
      tail ++ (root.toList ++ (pathPart resource).toList) ++
        '?' :: (queryText resource query).toList := by
    rw [callText_eq resource hne]
    simp
  rw [htext] at hread
  obtain ⟨rfl, rfl⟩ :=
    Uri.readPathQuery?_append_query hpath (hash_not_mem_queryText hr hq) hread
  have hcall : String.ofList (tail ++ (root.toList ++ (pathPart resource).toList)) =
      Uri.afterAuthority endpoint ++ root ++ pathPart resource := by
    rw [← String.toList_inj, habs.afterAuthority_eq]
    simp
  have hroot : Uri.afterAuthority endpoint ++ root ++ pathPart resource ≠ "" := by
    simp [← String.toList_eq_nil_iff, root]
  constructor
  · rw [hcall, if_neg hroot]
    rfl
  · simp [Uri.query?]

/-- The path of a URI ends where a mark ends it, so the endpoint before a call that is all there
holds no mark. -/
theorem IsTarget.unmarked (h : IsTarget uri endpoint resource query)
    (habs : Uri.IsAbsolute endpoint.toList name authority tail)
    (hp : Uri.parse? (ofParts endpoint resource query) = some uri) :
    ∀ c ∈ tail, Uri.isPathEnd c = false := by
  rw [ofParts_eq_append] at hp
  obtain ⟨p, q, hread, rfl⟩ := habs.parse?_append (head?_callText resource query) hp
  have hpath := h.path_eq
  have hend := Uri.not_isPathEnd_of_readPathQuery? hread
  have huri : ∀ c ∈
      (Uri.absoluteForm (.ofName name) authority (if p = "" then "/" else p) q).path.toList,
      Uri.isPathEnd c = false := by
    change ∀ c ∈ (if p = "" then "/" else p).toList, Uri.isPathEnd c = false
    split_ifs with he
    · simp [Uri.isPathEnd]
    · exact hend
  rw [hpath, habs.afterAuthority_eq] at huri
  exact fun c hc => huri c (by simp [hc])

/-- Behind a mark nothing of the call gets into the path. -/
theorem path_eq_of_marked (habs : Uri.IsAbsolute endpoint.toList name authority tail)
    {endpointUri : Uri} (hendpoint : Uri.parse? endpoint = some endpointUri)
    (hp : Uri.parse? (ofParts endpoint resource query) = some uri)
    (hmark : ∃ c ∈ tail, Uri.isPathEnd c = true) : uri.path = endpointUri.path := by
  rw [habs.parse?_eq rfl (Uri.utf8ByteSize_le_of_parse? hendpoint)] at hendpoint
  obtain ⟨⟨p, q⟩, hread, rfl⟩ := Option.map_eq_some_iff.mp hendpoint
  rw [ofParts_eq_append] at hp
  obtain ⟨p', q', hread', rfl⟩ := habs.parse?_append (head?_callText resource query) hp
  rw [Uri.readPathQuery?_append_path hmark hread hread']
  rfl

end Target

theorem encode_ne_empty {args : Arguments} {a : String × String} {rest : List (String × String)}
    (h : args.present = a :: rest) : args.encode ≠ "" := by
  simp [encode_eq_empty_iff, h]

/-- What is sent first is written first. -/
theorem pairChars_prefix_encode {args : Arguments} {a : String × String}
    {rest : List (String × String)} (h : args.present = a :: rest) :
    Arguments.pairChars a <+: args.encode.toList := by
  rw [toList_encode, h, List.map_cons]
  exact prefix_intercalate _ _ _

end AdminUrl

namespace Client

/-- An endpoint has no mark that ends its path exactly when there is none behind its authority. -/
theorem unmarked_iff {endpoint : String} {name tail : List Char} {authority : Authority}
    (habs : Uri.IsAbsolute endpoint.toList name authority tail) :
    (∀ c ∈ tail, Uri.isPathEnd c = false) ↔ '?' ∉ endpoint.toList ∧ '#' ∉ endpoint.toList := by
  rw [habs.mem_iff_of_isPathEnd (by decide : Uri.isPathEnd '?' = true),
    habs.mem_iff_of_isPathEnd (by decide : Uri.isPathEnd '#' = true)]
  constructor
  · intro h
    exact ⟨fun hm => absurd (h _ hm) (by decide), fun hm => absurd (h _ hm) (by decide)⟩
  · rintro ⟨hq, hf⟩ c hc
    simp [Uri.isPathEnd, ne_of_mem_of_not_mem hc hq, ne_of_mem_of_not_mem hc hf]

/-- An operation sends the one request that is built for it. -/
theorem sent_perform {c : Client} {op : Operation} {args : Arguments} {time : Instant}
    {request : Request} (hargs : op.arguments = .ok args)
    (hrequest : c.signedRequest op.method op.resource args time = .ok request) (t : Transport) :
    (c.perform op time t).2.sent = t.sent ++ [request] := by
  have hsend : (t.send request).2.sent = t.sent ++ [request] := rfl
  unfold perform call
  rw [hargs]
  dsimp only
  rw [hrequest]
  dsimp only
  split <;> simp_all

theorem hash_not_mem_resource (op : Operation) : '#' ∉ op.resource.toList := by
  cases op <;> (dsimp only [Operation.resource]; decide)

/-- Every operation whose request is built sends that request, with the format as the first of its
arguments. Its path is the path of the endpoint with the path of the admin resource behind it, and
its query is the sub-resource with the encoded arguments behind it, exactly when the endpoint has
neither a query nor a fragment. Otherwise the path is the one of the endpoint alone. -/
theorem operation_request_target {config : Config} {client : Client} {op : Operation}
    {args : Arguments} {time : Instant} {request : Request}
    (hclient : ofConfig config = .ok client) (hargs : op.arguments = .ok args)
    (hrequest : client.signedRequest op.method op.resource args time = .ok request) :
    (∀ t, (client.perform op time t).2.sent = t.sent ++ [request]) ∧
    (∃ rest, args.present = ("format", "json") :: rest) ∧
    "format=json".toList <+: args.encode.toList ∧
    (AdminUrl.IsTarget request.uri client.endpoint op.resource args.encode ↔
      '?' ∉ client.endpoint.toList ∧ '#' ∉ client.endpoint.toList) ∧
    (¬ ('?' ∉ client.endpoint.toList ∧ '#' ∉ client.endpoint.toList) →
      (Uri.parse? client.endpoint).map Uri.path = some request.uri.path) := by
  obtain ⟨name, authority, tail, p, q, habs, -, hendpoint⟩ := exists_isAbsolute hclient
  obtain ⟨uri, signed, hp, hsign⟩ := signedRequest_eq_ok_iff.mp hrequest
  have huri : request.uri = uri := by
    obtain ⟨-, -, -, -, -, -, rfl⟩ := Signer.sign_eq_ok_iff.mp hsign
    rfl
  obtain ⟨rest, hpresent⟩ := (op.arguments_isAdmin args hargs).present_eq
  have hne := AdminUrl.encode_ne_empty hpresent
  rw [← unmarked_iff habs, huri]
  refine ⟨sent_perform hargs hrequest, ⟨rest, hpresent⟩, ?_, ?_, ?_⟩
  · exact AdminUrl.pairChars_prefix_encode hpresent
  · constructor
    · exact fun htarget => htarget.unmarked habs hp
    · exact AdminUrl.isTarget_of_unmarked habs hp hne (hash_not_mem_resource op)
        (AdminUrl.hash_not_mem_encode args)
  · intro hmark
    have hmark' : ∃ c ∈ tail, Uri.isPathEnd c = true := by simpa using hmark
    rw [hendpoint, Option.map_some, AdminUrl.path_eq_of_marked habs hendpoint hp hmark']

/-- A sub-resource below an endpoint with a path of its own. -/
theorem operation_request_target_subresource :
    let op := Operation.getQuota .user { userId := some "a?b" }
    let args := Arguments.admin |>.add "uid" "a?b" |>.add "quota-type" "user"
    let client : Client := ⟨"http://h/s3", ⟨"k", "s"⟩, {}⟩
    ofConfig { endpoint := "http://h/s3/", accessKey := "k", secretKey := "s" } = .ok client ∧
    op.arguments = .ok args ∧
    ∃ request, client.signedRequest op.method op.resource args .epoch = .ok request ∧
      request.uri.path = "/s3/admin/user" ∧
      request.uri.query? = some "quota&format=json&uid=a%3Fb&quota-type=user" := by
  intro op args client
  have hclient : ofConfig { endpoint := "http://h/s3/", accessKey := "k", secretKey := "s" } =
      .ok client := by decide
  have hargs : op.arguments = .ok args := by decide
  obtain ⟨signed, request, hsign⟩ := Signer.sign_succeeds {}
    ⟨.get, .absoluteForm .http ⟨"h", by decide⟩ "/s3/admin/user"
      (some "quota&format=json&uid=a%3Fb&quota-type=user"), .empty⟩
    ⟨"k", "s"⟩ .epoch (show _ = some "h" by decide) (by decide) (by decide) (by decide)
  have hrequest : client.signedRequest op.method op.resource args .epoch = .ok request :=
    signedRequest_eq_ok_iff.mpr ⟨_, signed, by decide +kernel, hsign⟩
  obtain ⟨-, -, -, htarget, -⟩ := operation_request_target hclient hargs hrequest
  obtain ⟨hpath, hquery⟩ := htarget.mpr (by decide)
  exact ⟨hclient, hargs, request, hrequest, hpath.trans (by decide), hquery.trans (by decide)⟩

/-- A fragment behind the endpoint takes the whole call with it. -/
theorem accepted_endpoint_swallows_call : ∃ client request,
    ofConfig { endpoint := "http://h#f", accessKey := "k", secretKey := "s" } = .ok client ∧
    Operation.getInfo.arguments = .ok .admin ∧
    client.signedRequest .get "/info" .admin .epoch = .ok request ∧
    ¬ "/admin/info".toList <:+ request.uri.path.toList ∧ request.uri.query? = none := by
  obtain ⟨signed, request, hsign⟩ := Signer.sign_succeeds {}
    ⟨.get, .absoluteForm .http ⟨"h", by decide⟩ "/" none, .empty⟩
    ⟨"k", "s"⟩ .epoch (show _ = some "h" by decide) (by decide) (by decide) (by decide)
  have huri : request.uri = .absoluteForm .http ⟨"h", by decide⟩ "/" none := by
    obtain ⟨-, -, -, -, -, -, rfl⟩ := Signer.sign_eq_ok_iff.mp hsign
    rfl
  have hrequest : signedRequest ⟨"http://h#f", ⟨"k", "s"⟩, {}⟩ .get "/info" .admin .epoch =
      .ok request := signedRequest_eq_ok_iff.mpr ⟨_, signed, by decide, hsign⟩
  refine ⟨_, request, by decide, by decide, hrequest, ?_, ?_⟩
  · rw [huri]
    decide
  · rw [huri]
    rfl

end Client
end GatewayAdmin
