import GatewayAdmin.Proofs.CommandWords
import GatewayAdmin.Proofs.OperationConformance
import GatewayAdmin.Proofs.Utf8Text

/-! Whose usage is read or trimmed. A user that is named is read off the query of the request that
is sent, and no other user is; an empty name counts as absent, and then the usage of all is
meant. -/
namespace GatewayAdmin

open Text

/-! ### What is read off a query -/

/-- A query begins behind the first question mark. One that stands earlier keeps what is between the
two in front of the query. -/
theorem Uri.readPathQuery?_append_before {cs query : List Char} {p : String} {q : Option String}
    (hcs : '#' ∉ cs) (hquery : '#' ∉ query)
    (h : readPathQuery? (cs ++ '?' :: query) = some (p, q)) :
    ∃ before, q = some (String.ofList (before ++ query)) ∧ ('?' ∉ cs → before = []) := by
  have hend : ∀ path : List Char, '?' ∉ path → '#' ∉ path → ∀ c ∈ path, isPathEnd c = false := by
    intro path hmark hhash c hc
    simp [isPathEnd, ne_of_mem_of_not_mem hc hmark, ne_of_mem_of_not_mem hc hhash]
  by_cases hmark : '?' ∈ cs
  · obtain ⟨path, own, rfl, hpath⟩ := List.eq_append_cons_of_mem hmark
    simp only [List.mem_append, List.mem_cons, not_or] at hcs
    have hown : '#' ∉ own ++ '?' :: query := by simp [hcs.2.2, hquery]
    rw [List.append_assoc, List.cons_append] at h
    obtain ⟨-, hq⟩ := readPathQuery?_append_query (hend path hpath hcs.1) hown h
    refine ⟨own ++ ['?'], ?_, fun hno => absurd hmark hno⟩
    rw [hq, List.append_assoc, List.singleton_append]
  · obtain ⟨-, hq⟩ := readPathQuery?_append_query (hend cs hmark hcs) hquery h
    exact ⟨[], hq, fun _ => rfl⟩

namespace AdminUrl

/-- The arguments that are given, in octets. -/
def givenPairs (args : Arguments) : List Canonical.Pair :=
  args.present.map fun a => (utf8 a.1, utf8 a.2)

theorem map_pairOfField_pairChars (pairs : List (String × String)) :
    (pairs.map Arguments.pairChars).map Canonical.pairOfField =
      pairs.map fun a => (utf8 a.1, utf8 a.2) := by
  rw [List.map_map]
  exact List.map_congr_left fun a _ => Canonical.pairOfField_pairChars (utf8 a.1, utf8 a.2)

theorem splitOn_pairChars {pairs : List (String × String)} (hne : pairs ≠ []) :
    (['&'].intercalate (pairs.map Arguments.pairChars)).splitOn '&' =
      pairs.map Arguments.pairChars := by
  apply List.splitOn_intercalate
  · intro field hfield hmem
    obtain ⟨a, -, rfl⟩ := List.mem_map.mp hfield
    exact absurd (isFieldChar_of_mem_pairChars hmem) (by decide)
  · simpa using hne

theorem readFields_encode {args : Arguments} (hne : args.present ≠ []) :
    readFields (some args.encode) = givenPairs args := by
  rw [readFields, Option.elim_some, toList_encode, splitOn_pairChars hne,
    map_pairOfField_pairChars, givenPairs]

/-- Whatever is put before the query, all arguments but the first are read at its end. -/
theorem mem_readFields_of_mem {args : Arguments} {a b : String × String}
    {rest : List (String × String)} (h : args.present = a :: rest) (hb : b ∈ rest)
    (before : List Char) : (utf8 b.1, utf8 b.2) ∈
      readFields (some (String.ofList (before ++ args.encode.toList))) := by
  have hne : rest ≠ [] := List.ne_nil_of_mem hb
  have hquery : args.encode.toList =
      Arguments.pairChars a ++ '&' :: ['&'].intercalate (rest.map Arguments.pairChars) := by
    obtain ⟨first, more, hrest⟩ := List.exists_cons_of_ne_nil hne
    rw [toList_encode, h, hrest, List.map_cons, List.map_cons, List.intercalate_cons_cons,
      List.append_assoc, List.singleton_append]
  rw [readFields, Option.elim_some, String.toList_ofList, hquery, ← List.append_assoc,
    List.splitOn_append_cons_self, splitOn_pairChars hne, List.map_append,
    map_pairOfField_pairChars]
  exact List.mem_append_right _ (List.mem_map_of_mem hb)

end AdminUrl

namespace Client

/-- The query of a request is the one of its call, after a query of the endpoint's own if any. -/
theorem exists_query_of_request {config : Config} {client : Client} {op : Operation}
    {time : Instant} {r : Request} (hclient : ofConfig config = .ok client)
    (hfragment : '#' ∉ client.endpoint.toList) (h : client.request (op, time) = .ok r) :
    ∃ args before, op.arguments = .ok args ∧
      r.uri.query? = some (String.ofList (before ++
        (AdminUrl.queryText op.resource args.encode).toList)) ∧
      ('?' ∉ client.endpoint.toList → before = []) := by
  obtain ⟨args, hargs, hsigned⟩ := request_eq_ok_iff.mp h
  obtain ⟨-, hp⟩ := target_of_signedRequest hsigned
  obtain ⟨name, authority, tail, -, -, habs, -, -⟩ := exists_isAbsolute hclient
  obtain ⟨rest, hpresent⟩ := (op.arguments_isAdmin args hargs).present_eq
  have hne := AdminUrl.encode_ne_empty hpresent
  have hhash := hash_not_mem_resource op
  have hmark : '?' ∈ tail ↔ '?' ∈ client.endpoint.toList :=
    (habs.mem_iff_of_isPathEnd (by decide)).symm
  rw [habs.mem_iff_of_isPathEnd (by decide)] at hfragment
  -- what stands before the question mark of the call
  have hpath : '#' ∉ tail ++ AdminUrl.root.toList ++ (AdminUrl.pathPart op.resource).toList := by
    have hpart : '#' ∉ (AdminUrl.pathPart op.resource).toList :=
      fun hm => hhash (AdminUrl.mem_of_mem_pathPart hm)
    simp [hfragment, hpart, AdminUrl.root]
  have hquery := AdminUrl.hash_not_mem_queryText hhash (AdminUrl.hash_not_mem_encode args)
  rw [AdminUrl.ofParts_eq_append] at hp
  obtain ⟨p, q, hread, huri⟩ := habs.parse?_append (AdminUrl.head?_callText _ _) hp
  have htext : tail ++ (AdminUrl.callText op.resource args.encode).toList =
      tail ++ AdminUrl.root.toList ++ (AdminUrl.pathPart op.resource).toList ++
        '?' :: (AdminUrl.queryText op.resource args.encode).toList := by
    rw [AdminUrl.callText_eq _ hne]
    simp
  rw [htext] at hread
  obtain ⟨before, hq, hbefore⟩ := Uri.readPathQuery?_append_before hpath hquery hread
  refine ⟨args, before, hargs, ?_, fun hno => hbefore ?_⟩
  · rw [huri, ← hq]
    rfl
  · have hpart := AdminUrl.not_mem_pathPart op.resource
    simp [hmark, hno, hpart, AdminUrl.root]

end Client

/-- The values of a parameter, as the receiver of the request reads them. -/
def Request.queryValues (r : Request) (name : String) : List (List UInt8) :=
  ((AdminUrl.readFields r.uri.query?).filter (·.1 = utf8 name)).map Prod.snd

/-- The request is about this user. If the endpoint has no query of its own, no other user is read
off the request. -/
structure Request.NamesUser (r : Request) (endpoint u : String) : Prop where
  mem : utf8 u ∈ r.queryValues "uid"
  only : '?' ∉ endpoint.toList → r.queryValues "uid" = [utf8 u]

/-! ### Usage -/

/-- The user stands behind the format, and nowhere else. -/
def Arguments.NamesUser (args : Arguments) (u : String) : Prop :=
  ∃ more, args.present = ("format", "json") :: ("uid", u) :: more ∧ ∀ a ∈ more, a.1 ≠ "uid"

namespace Arguments

variable {args : Arguments} {u : String}

theorem namesUser_admin_add {uid : Option String} (huid : uid = some u) (hu : u ≠ "") :
    (admin.add "uid" uid).NamesUser u := by
  have htext : ArgumentText.text? uid = some u := by
    rw [huid, ArgumentText.text?_optionString, ArgumentValue.written?_text_some hu]
  refine ⟨[], ?_, nofun⟩
  rw [present_add, htext]
  rfl

theorem NamesUser.add {α : Type} [ArgumentText α] (h : args.NamesUser u) (name : String)
    (value : α) (hname : name ≠ "uid") : (args.add name value).NamesUser u := by
  obtain ⟨more, hpresent, hmore⟩ := h
  refine ⟨more ++ ((ArgumentText.text? value).map (name, ·)).toList, ?_, ?_⟩
  · rw [present_add, hpresent, List.cons_append, List.cons_append]
  · intro a ha
    rcases List.mem_append.mp ha with ha | ha
    · exact hmore a ha
    · obtain ⟨text, -, rfl⟩ := Option.map_eq_some_iff.mp (Option.mem_toList.mp ha)
      exact hname

theorem NamesUser.namesUser_of_query {r : Request} {endpoint : String} {before : List Char}
    (h : args.NamesUser u)
    (hquery : r.uri.query? = some (String.ofList (before ++ args.encode.toList)))
    (hbefore : '?' ∉ endpoint.toList → before = []) : r.NamesUser endpoint u := by
  obtain ⟨more, hpresent, hmore⟩ := h
  constructor
  · have hmem := AdminUrl.mem_readFields_of_mem hpresent List.mem_cons_self before
    rw [← hquery] at hmem
    exact List.mem_map.mpr ⟨_, List.mem_filter.mpr ⟨hmem, by simp⟩, rfl⟩
  · intro hmark
    have hformat : utf8 "format" ≠ utf8 "uid" := by decide
    have hrest : (more.map fun a => (utf8 a.1, utf8 a.2)).filter (·.1 = utf8 "uid") = [] := by
      apply List.filter_eq_nil_iff.mpr
      intro pair hpair
      obtain ⟨a, ha, rfl⟩ := List.mem_map.mp hpair
      have hname := fun heq => hmore a ha (utf8_injective heq)
      simpa using hname
    rw [Request.queryValues, hquery, hbefore hmark, List.nil_append, String.ofList_toList,
      AdminUrl.readFields_encode (by simp [hpresent]), AdminUrl.givenPairs, hpresent]
    simp [hformat, hrest]

end Arguments

/-- The operations on the usage that a query selects. -/
def UsageQuery.operations (q : UsageQuery) : List Operation := [.getUsage q, .trimUsage q]

theorem UsageQuery.exists_arguments {q : UsageQuery} {u : String} (huser : q.userId = some u)
    (hu : u ≠ "") {op : Operation} (hop : op ∈ q.operations) :
    op.resource = "/usage" ∧ ∃ args, op.arguments = .ok args ∧ args.NamesUser u := by
  have hstart := (Arguments.namesUser_admin_add huser hu).add "start" q.start (by decide)
  have hrange : q.rangeArguments.NamesUser u := hstart.add "end" q.stop (by decide)
  simp only [operations, List.mem_cons, List.not_mem_nil, or_false] at hop
  rcases hop with rfl | rfl
  · have hentries := hrange.add "show-entries" q.showEntries (by decide)
    exact ⟨rfl, q.getArguments, rfl, hentries.add "show-summary" q.showSummary (by decide)⟩
  · exact ⟨rfl, q.trimArguments, rfl, hrange.add "remove-all" q.removeAll (by decide)⟩

namespace Client

theorem namesUser_of_request {config : Config} {client : Client} {q : UsageQuery} {u : String}
    {op : Operation} {time : Instant} {r : Request} (hclient : ofConfig config = .ok client)
    (hfragment : '#' ∉ client.endpoint.toList) (huser : q.userId = some u) (hu : u ≠ "")
    (hop : op ∈ q.operations) (h : client.request (op, time) = .ok r) :
    r.NamesUser client.endpoint u := by
  obtain ⟨args, before, hargs, hquery, hbefore⟩ := exists_query_of_request hclient hfragment h
  obtain ⟨hresource, args', hargs', hnames⟩ := q.exists_arguments huser hu hop
  obtain rfl : args' = args := by simpa [hargs'] using hargs
  have hno : AdminUrl.queryText "/usage" args'.encode = args'.encode := by
    rw [AdminUrl.queryText, show AdminUrl.subresource? "/usage" = none by decide]
    simp
  rw [hresource, hno] at hquery
  exact hnames.namesUser_of_query hquery hbefore

theorem perform_names_user {config : Config} {client : Client} {q : UsageQuery} {u : String}
    {op : Operation} (hclient : ofConfig config = .ok client)
    (hfragment : '#' ∉ client.endpoint.toList) (huser : q.userId = some u) (hu : u ≠ "")
    (hop : op ∈ q.operations) (time : Instant) (t : Transport) :
    (∃ e, client.perform op time t = (.error e, t)) ∨
      ∃ r, (client.perform op time t).2 = t.after [r] ∧ r.NamesUser client.endpoint u := by
  cases h : client.request (op, time) with
  | error e => exact .inl ⟨e, perform_eq_of_error h⟩
  | ok r =>
    refine .inr ⟨r, ?_, namesUser_of_request hclient hfragment huser hu hop h⟩
    rw [perform_eq_of_ok h, Transport.snd_send]

/-- For a call an empty name is the same as no name. -/
theorem perform_empty_user (c : Client) (q : UsageQuery) :
    c.perform (.getUsage { q with userId := some "" }) =
        c.perform (.getUsage { q with userId := none }) ∧
      c.perform (.trimUsage { q with userId := some "" }) =
        c.perform (.trimUsage { q with userId := none }) := by
  constructor
  · rfl
  · rfl

end Client

/-! ### The command line -/

namespace CommandLine

/-- Any text at all may be given for the user: what stands behind the sign is the value, whatever it
begins with. -/
theorem ofWords_usage (u : String) :
    Invocation.ofWords ["usage", "get", "--uid=" ++ u] = .ok ⟨{}, .usageGet (some u) none none⟩ ∧
      Invocation.ofWords ["usage", "trim", "--uid=" ++ u] =
        .ok ⟨{}, .usageTrim (some u) none none false⟩ := by
  have hget : List.Forall₂ (Written (rangeOptions ++ globalOptions)) [("uid", .text u)]
      [["--uid=" ++ u]] := .cons (written_uid u (by decide)).1 .nil
  have htrim : List.Forall₂ (Written (rangeOptions ++ [flag "remove-all"] ++ globalOptions))
      [("uid", .text u)] [["--uid=" ++ u]] := .cons (written_uid u (by decide)).1 .nil
  have hnames : ([("uid", GivenValue.text u)].map Prod.fst).Nodup := List.nodup_singleton _
  exact ⟨ofWords_usageGet hnames hget, ofWords_usageTrim hnames htrim⟩

/-- The commands about the usage in a range of time. -/
def usageCommands (uid start stop : Option String) (removeAll : Bool) : List Command :=
  [.usageGet uid start stop, .usageTrim uid start stop removeAll]

theorem exists_usageQuery {uid start stop : Option String} {removeAll : Bool} {command : Command}
    (h : command ∈ usageCommands uid start stop removeAll) :
    ∃ q : UsageQuery, q.userId = uid ∧ command.operation ∈ q.operations := by
  simp only [usageCommands, List.mem_cons, List.not_mem_nil, or_false] at h
  rcases h with rfl | rfl
  · exact ⟨_, rfl, List.mem_cons_self⟩
  · exact ⟨_, rfl, List.mem_cons_of_mem _ List.mem_cons_self⟩

theorem run_of_perform_error {client : Client} {command : Command} {time : Instant}
    {t : Transport} {e : CallError} (h : client.perform command.operation time t = (.error e, t)) :
    run client command time t = ⟨"", some e, t⟩ := by
  rw [run, h]

theorem transport_run (client : Client) (command : Command) (time : Instant) (t : Transport) :
    (run client command time t).transport = (client.perform command.operation time t).2 := by
  unfold run
  split
  · next h => rw [h]
  · next h => rw [h]

theorem run_names_user {config : Config} {client : Client} {u : String}
    (hclient : Client.ofConfig config = .ok client) (hfragment : '#' ∉ client.endpoint.toList)
    (hu : u ≠ "") {start stop : Option String} {removeAll : Bool} {command : Command}
    (hcommand : command ∈ usageCommands (some u) start stop removeAll) (time : Instant)
    (t : Transport) :
    (∃ e, run client command time t = ⟨"", some e, t⟩) ∨
      ∃ r, (run client command time t).transport = t.after [r] ∧
        r.NamesUser client.endpoint u := by
  obtain ⟨q, huser, hop⟩ := exists_usageQuery hcommand
  rw [transport_run]
  rcases Client.perform_names_user hclient hfragment huser hu hop time t with ⟨e, he⟩ | hsent
  · exact .inl ⟨e, run_of_perform_error he⟩
  · exact .inr hsent

theorem run_empty_user (client : Client) (start stop : Option String) (removeAll : Bool) :
    run client (.usageGet (some "") start stop) = run client (.usageGet none start stop) ∧
      run client (.usageTrim (some "") start stop removeAll) =
        run client (.usageTrim none start stop removeAll) := by
  constructor
  · rfl
  · rfl

/-- The words of a command about usage, with the values of its options. -/
inductive UsageWords : Values → List String → Prop
  | get {values : Values} {pieces : List (List String)}
      (h : List.Forall₂ (Written (rangeOptions ++ globalOptions)) values pieces) :
      UsageWords values ("usage" :: "get" :: pieces.flatten)
  | trim {values : Values} {pieces : List (List String)}
      (h : List.Forall₂ (Written (rangeOptions ++ [flag "remove-all"] ++ globalOptions)) values
        pieces) : UsageWords values ("usage" :: "trim" :: pieces.flatten)

/-- However a user is named among the options, in whatever words, the command is about that user. -/
theorem UsageWords.exists_command {values : Values} {words : List String} {u : String}
    (hwords : UsageWords values words) (hnames : (values.map Prod.fst).Nodup)
    (huser : ("uid", .text u) ∈ values) :
    ∃ overrides command start stop removeAll,
      Invocation.ofWords words = .ok ⟨overrides, command⟩ ∧
        command ∈ usageCommands (some u) start stop removeAll := by
  have htext (path : List String) : (Matches.mk path [[], [], values]).text? "uid" = some u :=
    (text?_eq_some_iff hnames).mpr huser
  cases hwords with
  | get h =>
    let m : Matches := ⟨["usage", "get"], [[], [], values]⟩
    refine ⟨_, _, m.text? "start", m.text? "end", false, ofWords_usageGet hnames h, ?_⟩
    rw [htext]
    exact List.mem_cons_self
  | trim h =>
    let m : Matches := ⟨["usage", "trim"], [[], [], values]⟩
    refine ⟨_, _, m.text? "start", m.text? "end", m.has "remove-all",
      ofWords_usageTrim hnames h, ?_⟩
    rw [htext]
    exact List.mem_cons_of_mem _ List.mem_cons_self

/-- Then the run sends nothing, or one request from which that user is read. -/
theorem UsageWords.run_names_user {values : Values} {words : List String} {u : String}
    (hwords : UsageWords values words) (hnames : (values.map Prod.fst).Nodup)
    (huser : ("uid", .text u) ∈ values) (hu : u ≠ "") {config : Config} {client : Client}
    (hclient : Client.ofConfig config = .ok client) (hfragment : '#' ∉ client.endpoint.toList)
    (time : Instant) (t : Transport) :
    ∃ overrides command, Invocation.ofWords words = .ok ⟨overrides, command⟩ ∧
      ((∃ e, run client command time t = ⟨"", some e, t⟩) ∨
        ∃ r, (run client command time t).transport = t.after [r] ∧
          r.NamesUser client.endpoint u) := by
  obtain ⟨overrides, command, start, stop, removeAll, hcommand, hmem⟩ :=
    hwords.exists_command hnames huser
  exact ⟨overrides, command, hcommand,
    CommandLine.run_names_user hclient hfragment hu hmem time t⟩

/-- Any text at all may be written for the user on the command line. If it is not empty, then the
call of the operation or of the command fails before anything is sent, or it sends one request, and
that user is read off its query. Behind an endpoint without a query of its own, no other user is. An
empty text counts as absent: the call is the one that names no user. -/
theorem usage_names_user {config : Config} {client : Client}
    (hclient : Client.ofConfig config = .ok client) (hfragment : '#' ∉ client.endpoint.toList)
    (u : String) (time : Instant) (t : Transport) :
    (Invocation.ofWords ["usage", "get", "--uid=" ++ u] = .ok ⟨{}, .usageGet (some u) none none⟩ ∧
      Invocation.ofWords ["usage", "trim", "--uid=" ++ u] =
        .ok ⟨{}, .usageTrim (some u) none none false⟩) ∧
    (u ≠ "" →
      (∀ q : UsageQuery, q.userId = some u → ∀ op ∈ q.operations,
        (∃ e, client.perform op time t = (.error e, t)) ∨
          ∃ r, (client.perform op time t).2 = t.after [r] ∧ r.NamesUser client.endpoint u) ∧
      ∀ start stop removeAll, ∀ command ∈ usageCommands (some u) start stop removeAll,
        (∃ e, run client command time t = ⟨"", some e, t⟩) ∨
          ∃ r, (run client command time t).transport = t.after [r] ∧
            r.NamesUser client.endpoint u) ∧
    (∀ q : UsageQuery,
      client.perform (.getUsage { q with userId := some "" }) =
          client.perform (.getUsage { q with userId := none }) ∧
        client.perform (.trimUsage { q with userId := some "" }) =
          client.perform (.trimUsage { q with userId := none })) ∧
    ∀ start stop removeAll,
      run client (.usageGet (some "") start stop) = run client (.usageGet none start stop) ∧
        run client (.usageTrim (some "") start stop removeAll) =
          run client (.usageTrim none start stop removeAll) := by
  refine ⟨ofWords_usage u, ?_, client.perform_empty_user, run_empty_user client⟩
  intro hu
  constructor
  · intro q huser op hop
    exact Client.perform_names_user hclient hfragment huser hu hop time t
  · intro start stop removeAll command hcommand
    exact run_names_user hclient hfragment hu hcommand time t

/-- A name with the separators of a query in it. -/
theorem usage_names_user_reserved :
    let client : Client := ⟨"http://h/s3", ⟨"k", "s"⟩, {}⟩
    let name := "é&uid=#"
    let command : Command := .usageTrim (some name) none none true
    Client.ofConfig { endpoint := "http://h/s3/", accessKey := "k", secretKey := "s" } =
      .ok client ∧
    '#' ∉ client.endpoint.toList ∧ name ≠ "" ∧
    ∃ r, (run client command .epoch (.ofQueue [])).transport.sent = [r] ∧ r.method = .delete ∧
      r.queryValues "uid" = [utf8 name] := by
  intro client name command
  have hclient : Client.ofConfig
      { endpoint := "http://h/s3/", accessKey := "k", secretKey := "s" } = .ok client := by decide
  have hfragment : '#' ∉ client.endpoint.toList := by decide
  have hname : name ≠ "" := by decide
  let query : UsageQuery := { userId := some name, removeAll := true }
  let uri : Uri := .absoluteForm .http ⟨"h", by decide⟩ "/s3/admin/usage"
    (some "format=json&uid=%C3%A9%26uid%3D%23&remove-all=true")
  have hargs : command.operation.arguments = .ok query.trimArguments := rfl
  have hp : Uri.parse? (AdminUrl.ofParts client.endpoint command.operation.resource
      query.trimArguments.encode) = some uri := by decide +kernel
  have hhost : Signer.hostValue? uri = some "h" := by decide
  obtain ⟨r, hrequest, hmethod, -⟩ := Client.exists_request hargs hp hhost (by decide) (by decide)
    (by decide) .epoch
  have hperform : (client.perform command.operation .epoch (.ofQueue [])).2 =
      Transport.after (.ofQueue []) [r] := by
    rw [Client.perform_eq_of_ok hrequest, Transport.snd_send]
  have hsent : (run client command .epoch (.ofQueue [])).transport.sent = [r] := by
    rw [transport_run, hperform]
    rfl
  obtain ⟨-, hnamed, -, -⟩ := usage_names_user hclient hfragment name .epoch (.ofQueue [])
  obtain ⟨-, hcommands⟩ := hnamed hname
  have hmem : command ∈ usageCommands (some name) none none true :=
    List.mem_cons_of_mem _ List.mem_cons_self
  rcases hcommands none none true command hmem with ⟨e, he⟩ | ⟨r', htransport, hr'⟩
  · rw [he] at hsent
    simp [Transport.ofQueue] at hsent
  · have hsame : [r'] = [r] := by
      rw [← hsent, htransport]
      rfl
    obtain rfl := List.singleton_injective hsame
    exact ⟨hclient, hfragment, hname, r', hsent, hmethod, hr'.only (by decide)⟩

/-- A name that is empty, and a trim of all that there is. -/
theorem usageTrim_empty_name :
    let client : Client := ⟨"http://h", ⟨"k", "s"⟩, {}⟩
    let query : UsageQuery := { userId := some "", removeAll := true }
    Client.ofConfig { endpoint := "http://h", accessKey := "k", secretKey := "s" } = .ok client ∧
    ∃ r, (client.perform (.trimUsage query) .epoch (.ofQueue [])).2.sent = [r] ∧
      (run client (.usageTrim (some "") none none true) .epoch (.ofQueue [])).transport.sent = [r] ∧
      r.method = .delete ∧ r.uri.path = "/admin/usage" ∧
      r.uri.query? = some "format=json&remove-all=true" ∧ r.queryValues "uid" = [] := by
  intro client query
  let uri : Uri := .absoluteForm .http ⟨"h", by decide⟩ "/admin/usage"
    (some "format=json&remove-all=true")
  have hclient : Client.ofConfig
      { endpoint := "http://h", accessKey := "k", secretKey := "s" } = .ok client := by decide
  have hoperation : (Command.usageTrim (some "") none none true).operation = .trimUsage query := rfl
  have hargs : (Operation.trimUsage query).arguments = .ok query.trimArguments := rfl
  have hp : Uri.parse? (AdminUrl.ofParts client.endpoint (Operation.trimUsage query).resource
      query.trimArguments.encode) = some uri := by decide +kernel
  have hhost : Signer.hostValue? uri = some "h" := by decide
  obtain ⟨r, hrequest, hmethod, huri⟩ := Client.exists_request hargs hp hhost (by decide)
    (by decide) (by decide) .epoch
  have hsent : (client.perform (.trimUsage query) .epoch (.ofQueue [])).2.sent = [r] := by
    rw [Client.perform_eq_of_ok hrequest, Transport.snd_send]
    rfl
  refine ⟨hclient, r, hsent, ?_, hmethod, ?_, ?_, ?_⟩
  · rw [transport_run, hoperation]
    exact hsent
  · rw [huri]
    rfl
  · rw [huri]
    rfl
  · rw [Request.queryValues, huri]
    decide +kernel

end CommandLine

end GatewayAdmin
