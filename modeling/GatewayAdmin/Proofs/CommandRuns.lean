import GatewayAdmin.CommandLine.Command
import GatewayAdmin.Proofs.CallRuns
import GatewayAdmin.Proofs.ReplyDepth

/-! Runs of commands. A run sends one request at most and prints nothing, unless its operation
succeeds and has a reply. Then it prints the reply as one indented text, from which the reply is
read again. -/
namespace GatewayAdmin

open Json Text

/-! ### Replies -/

namespace ReplyKind

/-- The type that replies of this kind are read as. -/
def type : ReplyKind → ResponseType
  | user => .user
  | bucket => .bucket
  | policy => .policy
  | indexReport => .ofCodec IndexReport.codec
  | quota => .ofCodec Quota.codec
  | usage => .ofCodec Usage.codec
  | account => .ofCodec Account.codec
  | info => .ofCodec Info.codec
  | names => (ResponseType.ofCodec .text).list
  | buckets => ResponseType.bucket.list
  | keys => ResponseType.userKey.list
  | caps => (ResponseType.ofCodec Capability.codec).list

def reply : (kind : ReplyKind) → kind.type.Carrier → Reply
  | user => Reply.user
  | bucket => Reply.bucket
  | policy => Reply.policy
  | indexReport => Reply.indexReport
  | quota => Reply.quota
  | usage => Reply.usage
  | account => Reply.account
  | info => Reply.info
  | names => Reply.names
  | buckets => Reply.buckets
  | keys => Reply.keys
  | caps => Reply.caps

end ReplyKind

/-- The values of a reply that are kept as they are, whatever they are. -/
def Reply.freeValues : Reply → List Value
  | user u => u.freeValues
  | policy p => p.freeValues
  | _ => []

namespace ReplyKind

theorem type_mem_all (kind : ReplyKind) : kind.type ∈ ResponseType.all := by
  cases kind <;> simp [type, ResponseType.all]

theorem read_eq (kind : ReplyKind) (body : List UInt8) :
    kind.read body = kind.reply <$> kind.type.codec.decode body := by
  cases kind <;> rfl

theorem write_reply (kind : ReplyKind) (x : kind.type.Carrier) :
    (kind.reply x).write = kind.type.codec.write x := by
  cases kind <;> rfl

theorem freeValues_reply (kind : ReplyKind) (x : kind.type.Carrier) :
    (kind.reply x).freeValues = kind.type.freeValues x := by
  have hlist {α : Type} (xs : List α) : [] = xs.flatMap fun _ => ([] : List Value) := by simp
  cases kind with
  | names | buckets | keys | caps => exact hlist x
  | _ => rfl

/-- A reply whose free values have integers for numbers is read again from what is written for it,
with or without white space. -/
theorem read_of_spells {kind : ReplyKind} {body : List UInt8} {reply : Reply}
    (hreply : kind.read body = .ok reply) (hfree : ∀ v ∈ reply.freeValues, v.Integral) :
    reply.write.Integral ∧
      ∀ text, Spells reply.write.draft text → kind.read text = .ok reply := by
  simp only [read_eq] at hreply ⊢
  obtain ⟨x, hx, rfl⟩ := map_eq_ok_iff.mp hreply
  rw [freeValues_reply] at hfree
  obtain ⟨hintegral, hread⟩ := ResponseType.decode_of_spells kind.type_mem_all hx hfree
  rw [write_reply]
  exact ⟨hintegral, fun text htext => map_eq_ok_iff.mpr ⟨x, hread text htext, rfl⟩⟩

end ReplyKind

/-! ### Outcomes of operations -/

/-- An operation that succeeds has no reply, or the one that the body of its response is read as. -/
theorem Client.settle_eq_ok {op : Operation} {t : Transport} {request : Request}
    {result : Option Reply} (h : settle op (t.send request).1 = .ok result) :
    op.replyKind? = none ∧ result = none ∨
      ∃ kind reply, op.replyKind? = some kind ∧ kind.read t.nextResponse.body = .ok reply ∧
        result = some reply := by
  have hconclude : conclude op t.nextResponse = .ok result := by
    rw [Transport.send] at h
    dsimp only at h
    split_ifs at h
    · exact h
    · simp [settle] at h
  rw [conclude] at hconclude
  split_ifs at hconclude
  cases hkind : op.replyKind? with
  | none =>
    simp only [hkind, Except.ok.injEq] at hconclude
    exact .inl ⟨rfl, hconclude.symm⟩
  | some kind =>
    simp only [hkind] at hconclude
    split at hconclude
    next reply hreply =>
      obtain rfl := Except.ok.inj hconclude
      exact .inr ⟨kind, reply, rfl, hreply, rfl⟩
    · simp at hconclude

/-! ### Runs -/

namespace CommandLine

/-- The commands whose operations have no reply. -/
def Command.IsSilent : Command → Prop
  | userRemove .. | userQuotaSet .. | bucketRemove .. | bucketLink .. | bucketUnlink ..
  | keyRemove .. | usageTrim .. | accountRemove _ => True
  | _ => False

theorem Command.isSilent_iff (command : Command) :
    command.IsSilent ↔ command.operation.replyKind? = none := by
  cases command with
  | bucketList uid stats =>
    cases uid <;> cases stats <;> simp [IsSilent, operation, Operation.replyKind?]
  | _ => simp [IsSilent, operation, Operation.replyKind?]

/-- The ways in which a run ends: before anything is sent, with an error after one request, with
nothing to print, or with the reply printed. -/
inductive Ends (command : Command) (t : Transport) : RunResult → Prop
  | unsent (e : CallError) : Ends command t ⟨"", some e, t⟩
  | failed (request : Request) (e : CallError) : Ends command t ⟨"", some e, t.after [request]⟩
  | silent (request : Request) (h : command.operation.replyKind? = none) :
      Ends command t ⟨"", none, t.after [request]⟩
  | printed (request : Request) {kind : ReplyKind} {reply : Reply}
      (hkind : command.operation.replyKind? = some kind)
      (hreply : kind.read t.nextResponse.body = .ok reply) :
      Ends command t ⟨reply.write.pretty ++ "\n", none, t.after [request]⟩

theorem ends_run (client : Client) (command : Command) (time : Instant) (t : Transport) :
    Ends command t (run client command time t) := by
  unfold run
  cases hrequest : client.request (command.operation, time) with
  | error e =>
    rw [Client.perform_eq_of_error hrequest]
    exact .unsent e
  | ok request =>
    rw [Client.perform_eq_of_ok hrequest, Transport.snd_send]
    cases hresult : Client.settle command.operation (t.send request).1 with
    | error e => exact .failed request e
    | ok result =>
      rcases Client.settle_eq_ok hresult with ⟨hkind, rfl⟩ | ⟨kind, reply, hkind, hreply, rfl⟩
      · exact .silent request hkind
      · exact .printed request hkind hreply

/-- A run of a command sends one request at most. It prints nothing if it fails or if its operation
has no reply; otherwise it prints the reply that the body of its response was read as. What is
printed is one text of the grammar, with the tokens of the compact text, and a line break. The same
reply is read from it when all numbers in the free values of the reply are integers of 64 bits,
which is to say that none of them was read as a floating-point number. -/
theorem run_prints_reply (client : Client) (command : Command) (time : Instant) (t : Transport) :
    let result := run client command time t
    (∃ requests, result.transport = t.after requests ∧ requests.length ≤ 1) ∧
    (result.error ≠ none ∨ command.IsSilent → result.output = "") ∧
    (result.error = none → ¬command.IsSilent → ∃ kind reply,
      command.operation.replyKind? = some kind ∧ kind.read t.nextResponse.body = .ok reply ∧
      result.output = reply.write.pretty ++ "\n" ∧
      (∃ d, Spells d (utf8 result.output) ∧ Spells d (utf8 reply.write.compact)) ∧
      ((∀ v ∈ reply.freeValues, v.Integral) → kind.read (utf8 result.output) = .ok reply)) := by
  intro result
  have hends : Ends command t result := ends_run client command time t
  clear_value result
  rw [command.isSilent_iff]
  cases hends with
  | unsent e =>
    exact ⟨⟨[], by simp [Transport.after], Nat.zero_le 1⟩, fun _ => rfl,
      fun h => absurd h (by simp)⟩
  | failed request e =>
    exact ⟨⟨[request], rfl, le_rfl⟩, fun _ => rfl, fun h => absurd h (by simp)⟩
  | silent request h =>
    exact ⟨⟨[request], rfl, le_rfl⟩, fun _ => rfl, fun _ hloud => absurd h hloud⟩
  | @printed request kind reply hkind hreply =>
    obtain ⟨d, hd⟩ := reply.write.exists_writtenAs
    refine ⟨⟨[request], rfl, le_rfl⟩, fun h => ?_, fun _ _ => ?_⟩
    · simp [hkind] at h
    · refine ⟨kind, reply, hkind, hreply, rfl, ⟨d, hd.spells_pretty.newline, hd.spells_compact⟩,
        fun hfree => ?_⟩
      obtain ⟨hintegral, hread⟩ := ReplyKind.read_of_spells hreply hfree
      exact hread _ hintegral.writtenAs.spells_pretty.newline

/-- A run whose response is a success with a reply in it prints the reply. -/
theorem run_of_success {client : Client} {command : Command} {time : Instant} {t : Transport}
    {request : Request} {kind : ReplyKind} {reply : Reply}
    (hrequest : client.request (command.operation, time) = .ok request)
    (hstatus : 100 ≤ t.nextResponse.status ∧ t.nextResponse.status < 300)
    (hkind : command.operation.replyKind? = some kind)
    (hreply : kind.read t.nextResponse.body = .ok reply) :
    run client command time t = ⟨reply.write.pretty ++ "\n", none, t.after [request]⟩ := by
  have hdecode : Client.decodeReply kind t.nextResponse.body = .ok reply := by
    rw [Client.decodeReply, hreply]
  rw [run, Client.perform_of_success hrequest hstatus hkind, hdecode]
  rfl

theorem exists_request_userGet : ∃ request, Client.request ⟨"http://h", ⟨"k", "s"⟩, {}⟩
    ((Command.userGet "ö" false).operation, .epoch) = .ok request := by
  have hargs : (Command.userGet "ö" false).operation.arguments = .ok _ := rfl
  obtain ⟨request, hrequest, -⟩ := Client.exists_request (c := ⟨"http://h", ⟨"k", "s"⟩, {}⟩) hargs
    (show _ = some (.absoluteForm .http ⟨"h", by decide⟩ "/admin/user"
      (some "format=json&uid=%C3%B6")) by decide +kernel)
    (show _ = some "h" by decide) (by decide) (by decide) (by decide) .epoch
  exact ⟨request, hrequest⟩

/-- A user with an object among its free values. The members of the object are printed in the order
of their names, and a letter that was escaped in the response is printed as it is. -/
theorem run_prints_reply_user :
    let client : Client := ⟨"http://h", ⟨"k", "s"⟩, {}⟩
    let body := utf8 "\x7b\"mfa_ids\":[\x7b\"b\":1,\"a\":[]\x7d],\"user_id\":\"\\u00f6\"\x7d"
    let t : Transport := .ofQueue [⟨200, body⟩]
    let free : Value := .object [("a", .array []), ("b", .integer 1)]
    let reply : Reply := .user { id := some "ö", mfaIds := some [free] }
    let result := run client (.userGet "ö" false) .epoch t
    ReplyKind.user.read body = .ok reply ∧ result.error = none ∧
      result.output = "\x7b
  \"user_id\": \"ö\",
  \"mfa_ids\": [
    \x7b
      \"a\": [],
      \"b\": 1
    \x7d
  ]
\x7d
" ∧ ReplyKind.user.read (utf8 result.output) = .ok reply := by
  intro client body t free reply result
  have hbody : ReplyKind.user.read body = .ok reply := by decide +kernel
  obtain ⟨request, hrequest⟩ := exists_request_userGet
  have hrun : result = ⟨reply.write.pretty ++ "\n", none, t.after [request]⟩ :=
    run_of_success hrequest (by decide) rfl hbody
  have herror : result.error = none := by rw [hrun]
  obtain ⟨-, -, hprints⟩ := run_prints_reply client (.userGet "ö" false) .epoch t
  obtain ⟨kind, reply', hkind, hreply, houtput, -, hread⟩ := hprints herror id
  obtain rfl : ReplyKind.user = kind := Option.some.inj hkind
  obtain rfl : reply = reply' := Except.ok.inj (hbody.symm.trans hreply)
  have hfree : ∀ v ∈ reply.freeValues, v.Integral := by
    have hmembers : free.Integral := .object (by simpa using ⟨.array (by simp), .integer 1⟩)
    simpa [reply, Reply.freeValues, User.freeValues] using hmembers
  exact ⟨hbody, herror, houtput.trans (by decide +kernel), hread hfree⟩

/-- The only number in the response is an integer, but one too long for 64 bits. It is printed as
the floating-point number that is read for it, and another one is read from what is printed. -/
theorem run_prints_other_number :
    let client : Client := ⟨"http://h", ⟨"k", "s"⟩, {}⟩
    let body := utf8 "\x7b\"mfa_ids\":[300000000000000000000000]\x7d"
    let t : Transport := .ofQueue [⟨200, body⟩]
    let reply : Reply := .user { mfaIds := some [.number (.float 4958396687196483698)] }
    let other : Reply := .user { mfaIds := some [.number (.float 4958396687196483697)] }
    let result := run client (.userGet "ö" false) .epoch t
    ReplyKind.user.read body = .ok reply ∧ result.error = none ∧
      result.output = "\x7b
  \"mfa_ids\": [
    3e+23
  ]
\x7d
" ∧ ReplyKind.user.read (utf8 result.output) = .ok other ∧ other ≠ reply := by
  intro client body t reply other result
  have hbody : ReplyKind.user.read body = .ok reply := by decide +kernel
  obtain ⟨request, hrequest⟩ := exists_request_userGet
  have hrun : result = ⟨reply.write.pretty ++ "\n", none, t.after [request]⟩ :=
    run_of_success hrequest (by decide) rfl hbody
  have herror : result.error = none := by rw [hrun]
  have houtput : result.output = "\x7b\n  \"mfa_ids\": [\n    3e+23\n  ]\n\x7d\n" := by
    rw [hrun]
    change reply.write.pretty ++ "\n" = _
    decide +kernel
  have hread : ReplyKind.user.read (utf8 result.output) = .ok other := by
    rw [houtput]
    decide +kernel
  exact ⟨hbody, herror, houtput, hread, by decide +kernel⟩

end CommandLine
end GatewayAdmin
