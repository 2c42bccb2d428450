import GatewayAdmin.Proofs.AdminRequestTarget

/-! How setting up a client ends, and which of the URLs that it builds are refused. A call adds to
its endpoint nothing that a URI could not hold there, be it in the path, in the query or in the
fragment, so that the only fault of such a URL is its length. -/
namespace GatewayAdmin

namespace Text

/-- The text ends before the run of these characters that was taken off. -/
theorem not_of_mem_getLast?_dropEndWhile {p : Char → Bool} {cs : List Char} :
    ∀ c ∈ (dropEndWhile p cs).getLast?, p c = false := by
  intro c hc
  rw [dropEndWhile, List.getLast?_reverse] at hc
  have hhead := List.head?_dropWhile_not p cs.reverse
  rw [Option.mem_def.mp hc] at hhead
  simpa using hhead

theorem mem_head?_of_mem_head?_dropEndWhile {p : Char → Bool} {cs : List Char} {c : Char}
    (h : c ∈ (dropEndWhile p cs).head?) : c ∈ cs.head? := by
  have hcs := dropEndWhile_append_takeEnd p cs
  cases hdrop : dropEndWhile p cs with
  | nil => simp [hdrop] at h
  | cons d rest =>
    rw [hdrop] at h hcs
    rw [← hcs]
    simpa using h

end Text

namespace Uri

theorem mem_takeWhile_append {p : Char → Bool} {cs more : List Char} {c : Char}
    (h : c ∈ (cs ++ more).takeWhile p) : c ∈ cs.takeWhile p ∨ c ∈ more := by
  induction cs with
  | nil => exact .inr ((List.takeWhile_prefix p).subset h)
  | cons d cs ih =>
    by_cases hd : p d = true
    · rw [List.cons_append, List.takeWhile_cons_of_pos hd, List.mem_cons] at h
      rw [List.takeWhile_cons_of_pos hd, List.mem_cons]
      rcases h with hcd | h
      · exact .inl (.inl hcd)
      · exact (ih h).imp_left .inr
    · rw [List.cons_append, List.takeWhile_cons_of_neg hd] at h
      simp at h

theorem readQuery?_isSome_iff {cs : List Char} :
    (readQuery? cs).isSome = true ↔ ∀ c ∈ cs.takeWhile (· ≠ '#'), isQueryChar c = true := by
  rw [← List.all_eq_true, readQuery?]
  split_ifs with h
  · exact iff_of_true rfl h
  · exact iff_of_false (by simp) h

/-- A path and a query can be read when every character stands where it may stand. Of a fragment
nothing is asked. -/
theorem readPathQuery?_isSome_iff {cs : List Char} :
    (readPathQuery? cs).isSome = true ↔
      (∀ c ∈ cs.takeWhile (!isPathEnd ·), isPathChar c = true) ∧
        ∀ rest, cs.dropWhile (!isPathEnd ·) = '?' :: rest →
          ∀ c ∈ rest.takeWhile (· ≠ '#'), isQueryChar c = true := by
  rw [← List.all_eq_true, readPathQuery?]
  split_ifs with hpath
  · simp only [hpath, true_and]
    split
    · next rest hrest =>
      simp only [hrest, List.cons.injEq, true_and, forall_eq']
      rw [Option.isSome_map, readQuery?_isSome_iff]
    · next hno =>
      have hquery : ∀ rest, cs.dropWhile (!isPathEnd ·) ≠ '?' :: rest := hno
      simp [hquery]
  · simp [hpath]

/-- What may stand in a path and, from a question mark on, in a query may stand behind anything. -/
theorem readPathQuery?_append_isSome {cs more : List Char}
    (hpath : ∀ c ∈ more, isPathEnd c = false → isPathChar c = true)
    (hquery : ∀ c ∈ more, isQueryChar c = true) (h : (readPathQuery? cs).isSome = true) :
    (readPathQuery? (cs ++ more)).isSome = true := by
  rw [readPathQuery?_isSome_iff] at h ⊢
  induction cs with
  | nil =>
    rw [List.nil_append]
    constructor
    · intro c hc
      have hend : isPathEnd c = false := by simpa using List.mem_takeWhile_imp hc
      exact hpath c ((List.takeWhile_prefix _).subset hc) hend
    · intro rest hrest c hc
      have hmem : c ∈ more.dropWhile (!isPathEnd ·) := by
        rw [hrest]
        exact List.mem_cons_of_mem _ ((List.takeWhile_prefix _).subset hc)
      exact hquery c ((List.dropWhile_suffix _).subset hmem)
  | cons d cs ih =>
    obtain ⟨hp, hq⟩ := h
    cases hd : isPathEnd d with
    | true =>
      have htake (more : List Char) : (d :: more).takeWhile (!isPathEnd ·) = [] :=
        List.takeWhile_cons_of_neg (by simp [hd])
      have hdrop (more : List Char) : (d :: more).dropWhile (!isPathEnd ·) = d :: more :=
        List.dropWhile_cons_of_neg (by simp [hd])
      rw [hdrop] at hq
      rw [List.cons_append, htake, hdrop]
      constructor
      · simp
      · intro rest hrest c hc
        obtain ⟨rfl, rfl⟩ := List.cons.inj hrest
        rcases mem_takeWhile_append hc with hc | hc
        · exact hq cs rfl c hc
        · exact hquery c hc
    | false =>
      have htake (more : List Char) :
          (d :: more).takeWhile (!isPathEnd ·) = d :: more.takeWhile (!isPathEnd ·) :=
        List.takeWhile_cons_of_pos (by simp [hd])
      have hdrop (more : List Char) :
          (d :: more).dropWhile (!isPathEnd ·) = more.dropWhile (!isPathEnd ·) :=
        List.dropWhile_cons_of_pos (by simp [hd])
      rw [htake, List.forall_mem_cons] at hp
      rw [hdrop] at hq
      have hrest := ih ⟨hp.2, hq⟩
      rw [List.cons_append, htake, hdrop, List.forall_mem_cons]
      exact ⟨⟨hp.1, hrest.1⟩, hrest.2⟩

/-- Behind the text of an absolute URI such characters can be read, and then only the length
counts. -/
theorem IsAbsolute.parse?_append_eq_none_iff {s more : String} {name tail : List Char}
    {authority : Authority} (h : IsAbsolute s.toList name authority tail)
    (htail : (readPathQuery? tail).isSome = true)
    (hmore : ∀ c ∈ more.toList.head?, isAuthorityEnd c = true)
    (hpath : ∀ c ∈ more.toList, isPathEnd c = false → isPathChar c = true)
    (hquery : ∀ c ∈ more.toList, isQueryChar c = true) :
    parse? (s ++ more) = none ↔ maxBytes < (s ++ more).utf8ByteSize := by
  constructor
  · intro hnone
    by_contra hlen
    have hread := readPathQuery?_append_isSome hpath hquery htail
    rw [(h.append hmore).parse?_eq String.toList_append (Nat.le_of_not_lt hlen)] at hnone
    rw [Option.map_eq_none_iff] at hnone
    simp [hnone] at hread
  · intro hlen
    rw [parse?, if_pos hlen]

end Uri

namespace AdminUrl

open Text

/-- The characters that a call may add to its endpoint. -/
def isCallChar (c : Char) : Bool := c = '?' || c = '&' || isFieldChar c

theorem isCallChar_lt (c : Char) (h : isCallChar c = true) : c.toNat < 128 := by
  simp only [isCallChar, Bool.or_eq_true, decide_eq_true_eq] at h
  rcases h with (rfl | rfl) | h
  · decide
  · decide
  · exact isFieldChar_lt c h

theorem isQueryChar_of_isCallChar {c : Char} (h : isCallChar c = true) :
    Uri.isQueryChar c = true := isClass_of_ascii isCallChar_lt (by decide +kernel) h

theorem isPathChar_of_isCallChar {c : Char} (h : isCallChar c = true)
    (hend : Uri.isPathEnd c = false) : Uri.isPathChar c = true := by
  have hboth : (isCallChar c && !Uri.isPathEnd c) = true := by simp [h, hend]
  apply isClass_of_ascii (p := fun c => isCallChar c && !Uri.isPathEnd c) ?_ ?_ hboth
  · intro c hc
    exact isCallChar_lt c (Bool.and_eq_true_iff.mp hc).1
  · decide +kernel

theorem isCallChar_of_mem_encode {args : Arguments} {c : Char} (h : c ∈ args.encode.toList) :
    isCallChar c = true := by
  rw [toList_encode] at h
  rcases mem_of_mem_intercalate h with h | ⟨field, hf, h⟩
  · rw [List.mem_singleton.mp h]
    decide
  · obtain ⟨a, -, rfl⟩ := List.mem_map.mp hf
    simp [isCallChar, isFieldChar_of_mem_pairChars h]

theorem isCallChar_of_mem_callText {resource : String} {args : Arguments}
    (hr : ∀ c ∈ resource.toList, isCallChar c = true) {c : Char}
    (h : c ∈ (callText resource args.encode).toList) : isCallChar c = true := by
  have hroot : ∀ c ∈ root.toList, isCallChar c = true := List.all_eq_true.mp (by decide)
  have hseparator : ∀ c ∈ (separator resource args.encode).toList, isCallChar c = true := by
    unfold separator
    split_ifs
    · simp
    · simpa using by decide
    · simpa using by decide
  simp only [callText, String.toList_append, List.mem_append] at h
  rcases h with ((h | h) | h) | h
  · exact hroot c h
  · exact hr c h
  · exact hseparator c h
  · exact isCallChar_of_mem_encode h

theorem isCallChar_of_mem_resource (op : Operation) :
    ∀ c ∈ op.resource.toList, isCallChar c = true := by
  apply List.all_eq_true.mp
  cases op <;> (dsimp only [Operation.resource]; decide)

end AdminUrl

namespace Client

/-! ### Setting up -/

/-- What is left of a text when the white space around it and then the slashes at its end are taken
off, all of them. -/
def IsTrimmed (text endpoint : List Char) : Prop :=
  ∃ before slashes after, text = before ++ (endpoint ++ slashes) ++ after ∧
    (∀ c ∈ before, Text.isBlank c = true) ∧ (∀ c ∈ after, Text.isBlank c = true) ∧
    (∀ c ∈ (endpoint ++ slashes).head?, Text.isBlank c = false) ∧
    (∀ c ∈ (endpoint ++ slashes).getLast?, Text.isBlank c = false) ∧
    (∀ c ∈ slashes, c = '/') ∧ ∀ c ∈ endpoint.getLast?, c ≠ '/'

theorem isTrimmed_trimEndpoint (text : String) :
    IsTrimmed text.toList (trimEndpoint text).toList := by
  have hstart := text.toList.takeWhile_append_dropWhile (p := Text.isBlank)
  have hend := Text.dropEndWhile_append_takeEnd Text.isBlank (text.toList.dropWhile Text.isBlank)
  have hslashes := Text.dropEndWhile_append_takeEnd (· = '/') (Text.trimChars text.toList)
  rw [trimEndpoint, String.toList_ofList]
  refine ⟨text.toList.takeWhile Text.isBlank,
    ((Text.trimChars text.toList).reverse.takeWhile (· = '/')).reverse,
    ((text.toList.dropWhile Text.isBlank).reverse.takeWhile Text.isBlank).reverse,
    ?_, ?_, ?_, ?_, ?_, ?_, ?_⟩
  · rw [hslashes, List.append_assoc, Text.trimChars, hend, hstart]
  · exact fun c hc => List.mem_takeWhile_imp hc
  · exact fun c hc => List.mem_takeWhile_imp (List.mem_reverse.mp hc)
  · intro c hc
    rw [hslashes] at hc
    have hhead := List.head?_dropWhile_not Text.isBlank text.toList
    rw [Option.mem_def.mp (Text.mem_head?_of_mem_head?_dropEndWhile hc)] at hhead
    simpa using hhead
  · rw [hslashes]
    exact Text.not_of_mem_getLast?_dropEndWhile
  · intro c hc
    simpa using List.mem_takeWhile_imp (List.mem_reverse.mp hc)
  · intro c hc
    simpa using Text.not_of_mem_getLast?_dropEndWhile c hc

/-- White space and nothing else. -/
def IsBlank (s : String) : Prop := ∀ c ∈ s.toList, Text.isBlank c = true

theorem allBlank_iff {s : String} : Text.allBlank s = true ↔ IsBlank s := List.all_eq_true

/-- The text is a URI with a scheme. -/
def HasScheme (s : String) : Prop := ∃ uri, Uri.parse? s = some uri ∧ uri.scheme?.isSome = true

theorem isEndpoint_iff_hasScheme {s : String} : isEndpoint s = true ↔ HasScheme s := by
  rw [isEndpoint_iff]
  constructor
  · rintro ⟨scheme, authority, path, query, hp⟩
    exact ⟨_, hp, rfl⟩
  · rintro ⟨uri, hp, hscheme⟩
    obtain ⟨scheme, authority, path, query, rfl⟩ := Uri.scheme?_isSome_iff.mp hscheme
    exact ⟨scheme, authority, path, query, hp⟩

/-- The faults of a configuration, the first of which is reported. -/
theorem ofConfig_eq_error_iff {config : Config} {e : SetupError} : ofConfig config = .error e ↔
    IsBlank config.endpoint ∧ e = .missingEndpoint ∨
    ¬ IsBlank config.endpoint ∧ (IsBlank config.accessKey ∧ e = .missingAccessKey ∨
    ¬ IsBlank config.accessKey ∧ (IsBlank config.secretKey ∧ e = .missingSecretKey ∨
    ¬ IsBlank config.secretKey ∧ ¬ HasScheme (trimEndpoint config.endpoint) ∧
      e = .invalidEndpoint config.endpoint)) := by
  simp only [← allBlank_iff, ← isEndpoint_iff_hasScheme, ofConfig]
  split_ifs with endpoint access secret valid
  · simp [endpoint, eq_comm (b := e)]
  · simp [endpoint, access, eq_comm (b := e)]
  · simp [endpoint, access, secret, eq_comm (b := e)]
  · simp [endpoint, access, secret, valid]
  · simp [endpoint, access, secret, valid, eq_comm (b := e)]

/-! ### Building requests -/

theorem signedRequest_eq_invalidUrl_iff {c : Client} {method : Method} {resource url : String}
    {args : Arguments} {time : Instant} :
    c.signedRequest method resource args time = .error (.invalidRequestUrl url) ↔
      url = AdminUrl.ofParts c.endpoint resource args.encode ∧ Uri.parse? url = none := by
  unfold signedRequest
  dsimp only
  cases hp : Uri.parse? (AdminUrl.ofParts c.endpoint resource args.encode) with
  | none =>
    constructor
    · intro h
      obtain rfl : AdminUrl.ofParts c.endpoint resource args.encode = url := by simpa using h
      exact ⟨rfl, hp⟩
    · rintro ⟨rfl, -⟩
      rfl
  | some uri =>
    constructor
    · intro h
      cases hsign : c.signer.sign ⟨method, uri, Headers.empty⟩ c.credentials time with
      | ok signed => simp [hsign] at h
      | error fault => simp [hsign] at h
    · rintro ⟨rfl, hnone⟩
      simp [hp] at hnone

/-- The URL of an operation is refused for its length alone. -/
theorem parse?_ofParts_eq_none_iff {config : Config} {client : Client}
    (h : ofConfig config = .ok client) (op : Operation) (args : Arguments) :
    Uri.parse? (AdminUrl.ofParts client.endpoint op.resource args.encode) = none ↔
      Uri.maxBytes < (AdminUrl.ofParts client.endpoint op.resource args.encode).utf8ByteSize := by
  obtain ⟨name, authority, tail, p, q, habs, hread, -⟩ := exists_isAbsolute h
  have hchars : ∀ c ∈ (AdminUrl.callText op.resource args.encode).toList,
      AdminUrl.isCallChar c = true :=
    fun c hc => AdminUrl.isCallChar_of_mem_callText (AdminUrl.isCallChar_of_mem_resource op) hc
  rw [AdminUrl.ofParts_eq_append]
  apply habs.parse?_append_eq_none_iff
  · rw [hread]
    rfl
  · exact AdminUrl.head?_callText op.resource args.encode
  · exact fun c hc hend => AdminUrl.isPathChar_of_isCallChar (hchars c hc) hend
  · exact fun c hc => AdminUrl.isQueryChar_of_isCallChar (hchars c hc)

/-- A configuration without blank parts. -/
def IsComplete (config : Config) : Prop :=
  ¬ IsBlank config.endpoint ∧ ¬ IsBlank config.accessKey ∧ ¬ IsBlank config.secretKey

/-- A configuration is refused for the first of its blank parts, and if there is none for an
endpoint that is no URI with a scheme once it is trimmed. Otherwise there is a client with the
trimmed endpoint, and the URL of an operation is refused, whatever characters its arguments hold,
exactly when it is longer than a URI may be. -/
theorem setup_and_url_fail_exactly (config : Config) : ∃ endpoint : String,
    IsTrimmed config.endpoint.toList endpoint.toList ∧
    (ofConfig config = .error .missingEndpoint ↔ IsBlank config.endpoint) ∧
    (ofConfig config = .error .missingAccessKey ↔
      ¬ IsBlank config.endpoint ∧ IsBlank config.accessKey) ∧
    (ofConfig config = .error .missingSecretKey ↔
      ¬ IsBlank config.endpoint ∧ ¬ IsBlank config.accessKey ∧ IsBlank config.secretKey) ∧
    (∀ text, ofConfig config = .error (.invalidEndpoint text) ↔
      IsComplete config ∧ ¬ HasScheme endpoint ∧ text = config.endpoint) ∧
    (∀ client, ofConfig config = .ok client ↔ IsComplete config ∧ HasScheme endpoint ∧
      client = ⟨endpoint, config.credentials, ⟨config.region, config.service⟩⟩) ∧
    ∀ client, ofConfig config = .ok client → client.endpoint = endpoint ∧
      (∀ c ∈ client.endpoint.toList.getLast?, c ≠ '/') ∧
      ∀ (op : Operation) (args : Arguments) (time : Instant) (url : String),
        client.signedRequest op.method op.resource args time =
            .error (.invalidRequestUrl url) ↔
          url = endpoint ++ "/admin" ++ op.resource ++
            AdminUrl.separator op.resource args.encode ++ args.encode ∧
          65534 < url.utf8ByteSize := by
  have htrimmed := isTrimmed_trimEndpoint config.endpoint
  have hok (client : Client) : ofConfig config = .ok client ↔
      IsComplete config ∧ HasScheme (trimEndpoint config.endpoint) ∧ client =
        ⟨trimEndpoint config.endpoint, config.credentials, ⟨config.region, config.service⟩⟩ := by
    rw [ofConfig_eq_ok_iff, IsComplete, ← isEndpoint_iff_hasScheme]
    simp only [← allBlank_iff, Bool.not_eq_true, and_assoc]
  refine ⟨trimEndpoint config.endpoint, htrimmed, ?_, ?_, ?_, ?_, hok, ?_⟩
  · simp [ofConfig_eq_error_iff]
  · simp [ofConfig_eq_error_iff]
  · simp [ofConfig_eq_error_iff]
  · intro text
    simp [ofConfig_eq_error_iff, IsComplete, and_assoc]
  · intro client hclient
    obtain ⟨-, -, hfields⟩ := (hok client).mp hclient
    have hendpoint : client.endpoint = trimEndpoint config.endpoint := by rw [hfields]
    obtain ⟨_, _, _, -, -, -, -, -, -, hslash⟩ := htrimmed
    refine ⟨hendpoint, by rwa [hendpoint], fun op args time url => ?_⟩
    have hlimit := parse?_ofParts_eq_none_iff hclient op args
    rw [hendpoint] at hlimit
    rw [signedRequest_eq_invalidUrl_iff, hendpoint]
    constructor
    · rintro ⟨rfl, hnone⟩
      exact ⟨rfl, hlimit.mp hnone⟩
    · rintro ⟨rfl, hlong⟩
      exact ⟨rfl, hlimit.mpr hlong⟩

/-- Without its slashes `http:///` has no scheme any more. An endpoint with a fragment takes a name
with all kinds of separators in it. -/
theorem setup_and_url_fail_exactly_fragment :
    let config : Config := { endpoint := " http:/// ", accessKey := "k", secretKey := "s" }
    let config' : Config :=
      { endpoint := "http://u%@[::1]:80/a?b#<c>// ", accessKey := "k", secretKey := "s" }
    let client : Client := ⟨"http://u%@[::1]:80/a?b#<c>", ⟨"k", "s"⟩, {}⟩
    let op := Operation.getAccount "é #?/\x7b"
    let args := Arguments.admin |>.add "id" "é #?/\x7b"
    ofConfig config = .error (.invalidEndpoint " http:/// ") ∧
      ofConfig config' = .ok client ∧ op.arguments = .ok args ∧
      ∀ url, client.signedRequest op.method op.resource args .epoch ≠
        .error (.invalidRequestUrl url) := by
  intro config config' client op args
  have hclient : ofConfig config' = .ok client := by decide
  have hargs : op.arguments = .ok args := by decide
  obtain ⟨endpoint, -, -, -, -, -, -, hcalls⟩ := setup_and_url_fail_exactly config'
  obtain ⟨hendpoint, -, hurl⟩ := hcalls client hclient
  refine ⟨by decide, hclient, hargs, fun url hrefused => ?_⟩
  obtain ⟨hurl, hlong⟩ := (hurl op args .epoch url).mp hrefused
  have hshort : ¬ 65534 < url.utf8ByteSize := by
    rw [hurl, ← hendpoint]
    decide
  exact hshort hlong

end Client
end GatewayAdmin
