import Mathlib.Data.List.Induction
import Mathlib.Data.List.Nodup
import Mathlib.Logic.Function.Basic
import GatewayAdmin.Proofs.AcceptedEndpoint
import GatewayAdmin.Proofs.RepeatedSigning

/-! Whole runs against one transport. A call takes two turns: in the first its request is made, from
the call alone, and in the second it is sent and answered. Calls of many callers may take their
turns in any order; what comes of them is what comes of the same calls one after the other, in the
order in which they end. -/
namespace GatewayAdmin

/-- A status that a response can have. -/
def Response.HasStatus (r : Response) : Prop := 100 ≤ r.status ∧ r.status ≤ 999

namespace Transport

/-- The transport after these requests: each of them has taken one response. -/
def after (t : Transport) (requests : List Request) : Transport :=
  ⟨t.queue.drop requests.length, t.sent ++ requests⟩

theorem snd_send (t : Transport) (request : Request) : (t.send request).2 = t.after [request] := by
  rw [send, after, List.length_singleton, List.drop_one]

theorem send_eq {t : Transport} (ht : ∀ r ∈ t.queue, r.HasStatus) (request : Request) :
    t.send request = (.ok t.nextResponse, t.after [request]) := by
  have hnext : t.nextResponse.HasStatus := by
    cases hq : t.queue with
    | nil => simp [nextResponse, hq, Response.HasStatus]
    | cons r rest => simpa [nextResponse, hq] using ht r (by simp [hq])
  exact Prod.ext (if_pos hnext) (t.snd_send request)

theorem after_append (t : Transport) (requests more : List Request) :
    (t.after requests).after more = t.after (requests ++ more) := by
  simp [after, List.drop_drop]

theorem nextResponse_after (t : Transport) (requests : List Request) :
    (t.after requests).nextResponse = t.queue.getD requests.length ⟨200, []⟩ := by
  simp [nextResponse, after, List.headD_eq_head?_getD, List.head?_drop]

end Transport

namespace Client

/-- The request of a call. Only the call, the client and the time have a part in it. -/
def request (c : Client) (call : Operation × Instant) : Except CallError Request :=
  match call.1.arguments with
  | .error e => .error (.invalidInput e)
  | .ok args => (c.signedRequest call.1.method call.1.resource args call.2).mapError .config

/-- The requests of those calls that have one. -/
def requests (c : Client) (calls : List (Operation × Instant)) : List Request :=
  calls.filterMap fun call => (c.request call).toOption

/-- What an operation makes of its response. -/
def conclude (op : Operation) (response : Response) : Except CallError (Option Reply) :=
  if 300 ≤ response.status then .error (.ofReply (ErrorReply.ofBody response.body))
  else
    match op.replyKind? with
    | none => .ok none
    | some kind =>
      match kind.read response.body with
      | .ok reply => .ok (some reply)
      | .error fault => .error (.decode kind (Text.ofUtf8Lossy response.body) fault)

/-- What an operation makes of the transport's answer. -/
def settle (op : Operation) : Except TransportError Response → Except CallError (Option Reply)
  | .ok response => conclude op response
  | .error e => .error (.transport e)

/-- The result of a call when so many requests were sent before it. -/
def resultAt (c : Client) (queue : List Response) (sent : Nat) (call : Operation × Instant) :
    Except CallError (Option Reply) :=
  match c.request call with
  | .error e => .error e
  | .ok _ => conclude call.1 (queue.getD sent ⟨200, []⟩)

theorem conclude_eq (op : Operation) (response : Response) :
    (do
      let body ← outcome response
      match op.replyKind? with
      | some kind => return some (← decodeReply kind body)
      | none => return none) = conclude op response := by
  unfold conclude outcome
  split_ifs
  · rfl
  · cases op.replyKind? with
    | none => rfl
    | some kind =>
      change (do return some (← decodeReply kind response.body)) = _
      unfold decodeReply
      dsimp only
      cases kind.read response.body with
      | error fault => rfl
      | ok reply => rfl

section
variable {c : Client} {op : Operation} {time : Instant} {t : Transport} {e : CallError}
  {r : Request}

theorem perform_eq_of_error (h : c.request (op, time) = .error e) :
    c.perform op time t = (.error e, t) := by
  unfold request at h
  unfold perform
  cases ha : op.arguments with
  | error fault =>
    simp only [ha, Except.error.injEq] at h
    simp only [h]
  | ok args =>
    simp only [ha] at h
    cases hs : c.signedRequest op.method op.resource args time with
    | error fault =>
      simp only [hs, Except.mapError, Except.error.injEq] at h
      simp only [call, hs, h]
      rfl
    | ok request => simp [hs, Except.mapError] at h

/-- A call has a request when its arguments are valid and the URL that they give can be signed. -/
theorem request_eq_ok_iff {call : Operation × Instant} :
    c.request call = .ok r ↔ ∃ args, call.1.arguments = .ok args ∧
      c.signedRequest call.1.method call.1.resource args call.2 = .ok r := by
  unfold request
  cases call.1.arguments with
  | error e => simp
  | ok args =>
    cases hs : c.signedRequest call.1.method call.1.resource args call.2 <;>
      simp [hs, Except.mapError]

theorem perform_eq_of_ok (h : c.request (op, time) = .ok r) :
    c.perform op time t = (settle op (t.send r).1, (t.send r).2) := by
  obtain ⟨args, ha, hs⟩ := request_eq_ok_iff.mp h
  simp only [perform, ha, call, hs]
  rcases t.send r with ⟨answer, t'⟩
  cases answer with
  | error fault => rfl
  | ok response => exact congrArg (·, t') (conclude_eq op response)

/-- A call whose response is a success reads its body. -/
theorem perform_of_success {kind : ReplyKind} (hrequest : c.request (op, time) = .ok r)
    (hstatus : 100 ≤ t.nextResponse.status ∧ t.nextResponse.status < 300)
    (hkind : op.replyKind? = some kind) :
    c.perform op time t = (some <$> decodeReply kind t.nextResponse.body, t.after [r]) := by
  obtain ⟨hlow, hhigh⟩ := hstatus
  have hsend : (t.send r).1 = .ok t.nextResponse := if_pos ⟨hlow, by omega⟩
  have hconclude : conclude op t.nextResponse = some <$> decodeReply kind t.nextResponse.body := by
    unfold conclude decodeReply
    rw [if_neg (by omega), hkind]
    dsimp only
    cases kind.read t.nextResponse.body with
    | ok reply => rfl
    | error fault => rfl
  rw [perform_eq_of_ok hrequest, hsend, Transport.snd_send, ← hconclude]
  rfl

/-- A call whose URL can be signed has a request, whatever the secret and the time. -/
theorem exists_request {args : Arguments} {uri : Uri} {host : String}
    (hargs : op.arguments = .ok args)
    (hp : Uri.parse? (AdminUrl.ofParts c.endpoint op.resource args.encode) = some uri)
    (hhost : Signer.hostValue? uri = some host)
    (hkey : isHeaderValue c.credentials.accessKey = true)
    (hregion : isHeaderValue c.signer.region = true)
    (hservice : isHeaderValue c.signer.service = true) (time : Instant) :
    ∃ r, c.request (op, time) = .ok r ∧ r.method = op.method ∧ r.uri = uri := by
  obtain ⟨signed, r, hsign⟩ := Signer.sign_succeeds c.signer ⟨op.method, uri, .empty⟩ c.credentials
    time hhost hkey hregion hservice
  have hrequest : c.request (op, time) = .ok r :=
    request_eq_ok_iff.mpr ⟨args, hargs, signedRequest_eq_ok_iff.mpr ⟨uri, signed, hp, hsign⟩⟩
  obtain ⟨_, -, -, -, -, -, hr⟩ := Signer.sign_eq_ok_iff.mp hsign
  exact ⟨r, hrequest, by rw [hr], by rw [hr]⟩

theorem names_of_request {call : Operation × Instant} (h : c.request call = .ok r) :
    r.headers.names = Signer.fieldNames := by
  obtain ⟨args, -, hr⟩ := request_eq_ok_iff.mp h
  obtain ⟨uri, signed, -, hsign⟩ := signedRequest_eq_ok_iff.mp hr
  exact Signer.names_of_sign_empty hsign

/-- One call on a transport that has valid responses only. -/
theorem perform_eq (ht : ∀ r ∈ t.queue, r.HasStatus) (call : Operation × Instant) :
    c.perform call.1 call.2 t = (c.resultAt t.queue 0 call, t.after (c.requests [call])) := by
  cases h : c.request call with
  | error e =>
    rw [perform_eq_of_error h]
    simp [resultAt, requests, h, Except.toOption, Transport.after]
  | ok r =>
    rw [perform_eq_of_ok h, Transport.send_eq ht]
    have hfirst : t.nextResponse = t.queue.getD 0 ⟨200, []⟩ := by
      simpa [Transport.after] using Transport.nextResponse_after t []
    simp [resultAt, requests, h, Except.toOption, settle, hfirst]

end

section
variable (c : Client)

theorem performAll_append (t : Transport) (calls more : List (Operation × Instant)) :
    c.performAll t (calls ++ more) =
      ((c.performAll t calls).1 ++ (c.performAll (c.performAll t calls).2 more).1,
        (c.performAll (c.performAll t calls).2 more).2) := by
  induction calls generalizing t with
  | nil => rfl
  | cons call calls ih => simp only [List.cons_append, performAll, ih]

theorem length_performAll (t : Transport) (calls : List (Operation × Instant)) :
    (c.performAll t calls).1.length = calls.length := by
  induction calls generalizing t with
  | nil => rfl
  | cons call calls ih => simp only [performAll, List.length_cons, ih]

theorem requests_append (calls more : List (Operation × Instant)) :
    c.requests (calls ++ more) = c.requests calls ++ c.requests more := List.filterMap_append

variable {c}

theorem transport_performAll {t : Transport} (ht : ∀ r ∈ t.queue, r.HasStatus)
    (calls : List (Operation × Instant)) :
    (c.performAll t calls).2 = t.after (c.requests calls) := by
  induction calls generalizing t with
  | nil => simp [performAll, requests, Transport.after]
  | cons call calls ih =>
    have hrest : ∀ r ∈ (t.after (c.requests [call])).queue, r.HasStatus :=
      fun r hr => ht r (List.mem_of_mem_drop hr)
    calc (c.performAll t (call :: calls)).2
        = (c.performAll (c.perform call.1 call.2 t).2 calls).2 := rfl
      _ = (c.performAll (t.after (c.requests [call])) calls).2 := by rw [perform_eq ht]
      _ = t.after (c.requests [call] ++ c.requests calls) := by
        rw [ih hrest, Transport.after_append]
      _ = t.after (c.requests (call :: calls)) := by rw [← requests_append]; rfl

/-- The result of a call depends on the calls before it by nothing but the number of requests that
they sent, and on the calls after it not at all. -/
theorem getElem?_performAll {t : Transport} (ht : ∀ r ∈ t.queue, r.HasStatus)
    (before after : List (Operation × Instant)) (call : Operation × Instant) :
    (c.performAll t (before ++ call :: after)).1[before.length]? =
      some (c.resultAt t.queue (c.requests before).length call) := by
  have hrest : ∀ r ∈ (t.after (c.requests before)).queue, r.HasStatus :=
    fun r hr => ht r (List.mem_of_mem_drop hr)
  have hget (n : Nat) : (t.queue.drop n).getD 0 ⟨200, []⟩ = t.queue.getD n ⟨200, []⟩ := by
    simp [List.getD_eq_getElem?_getD]
  rw [performAll_append, transport_performAll ht,
    List.getElem?_append_right (Nat.le_of_eq (length_performAll c t before)), length_performAll,
    Nat.sub_self]
  simp only [performAll, perform_eq hrest, List.getElem?_cons_zero]
  simp only [resultAt, Transport.after, hget]

end

end Client

/-- How far a call has come. -/
inductive CallStage where
  | issued
  | ready (request : Request)
  | finished (result : Except CallError (Option Reply))

/-- Calls of many callers on one transport. -/
structure CallRun (κ : Type) where
  stage : κ → CallStage
  transport : Transport
  /-- The calls that have ended, in the order in which they did. -/
  finished : List κ

namespace CallRun

open Client (conclude)

variable {κ : Type} [DecidableEq κ]

def start (queue : List Response) : CallRun κ := ⟨fun _ => .issued, .ofQueue queue, []⟩

def setStage (s : CallRun κ) (k : κ) (stage : CallStage) : CallRun κ :=
  { s with stage := Function.update s.stage k stage }

def finish (s : CallRun κ) (k : κ) (result : Except CallError (Option Reply)) (t : Transport) :
    CallRun κ :=
  ⟨Function.update s.stage k (.finished result), t, s.finished ++ [k]⟩

/-- One turn of one call. -/
def step (c : Client) (calls : κ → Operation × Instant) (s : CallRun κ) (k : κ) : CallRun κ :=
  match s.stage k with
  | .issued =>
    match c.request (calls k) with
    | .ok request => s.setStage k (.ready request)
    | .error e => s.finish k (.error e) s.transport
  | .ready request =>
    let (answer, t) := s.transport.send request
    s.finish k (Client.settle (calls k).1 answer) t
  | .finished _ => s

/-- The calls take turns as the schedule says. -/
def play (c : Client) (calls : κ → Operation × Instant) (queue : List Response)
    (schedule : List κ) : CallRun κ :=
  schedule.foldl (step c calls) (start queue)

/-- What holds after the turns of a schedule. -/
structure Follows (c : Client) (calls : κ → Operation × Instant) (queue : List Response)
    (schedule : List κ) (s : CallRun κ) : Prop where
  nodup : s.finished.Nodup
  mem_finished : ∀ k, k ∈ s.finished ↔ ∃ result, s.stage k = .finished result
  issued : ∀ k, s.stage k = .issued → schedule.count k = 0
  ready : ∀ k request, s.stage k = .ready request →
    c.request (calls k) = .ok request ∧ schedule.count k = 1
  transport : (c.performAll (.ofQueue queue) (s.finished.map calls)).2 = s.transport
  results : (c.performAll (.ofQueue queue) (s.finished.map calls)).1.map .finished =
    s.finished.map s.stage

section
variable {c : Client} {calls : κ → Operation × Instant} {queue : List Response}
  {schedule : List κ} {s : CallRun κ} {k : κ}

theorem follows_start : Follows c calls queue [] (start queue : CallRun κ) where
  nodup := List.nodup_nil
  mem_finished k := by simp [start]
  issued k _ := rfl
  ready k request h := by simp [start] at h
  transport := rfl
  results := rfl

/-- A call that has its request waits for its second turn. -/
theorem Follows.setStage_ready (h : Follows c calls queue schedule s) {request : Request}
    (hk : s.stage k = .issued) (hreq : c.request (calls k) = .ok request) :
    Follows c calls queue (schedule ++ [k]) (s.setStage k (.ready request)) := by
  have hnot : k ∉ s.finished := fun hmem => by
    obtain ⟨result, hr⟩ := (h.mem_finished k).mp hmem
    simp [hk] at hr
  refine ⟨h.nodup, fun j => ?_, fun j hj => ?_, fun j request' hj => ?_, h.transport, ?_⟩
  · by_cases hjk : j = k
    · subst hjk
      simp [setStage, hnot]
    · simpa [setStage, hjk] using h.mem_finished j
  · by_cases hjk : j = k
    · subst hjk
      simp [setStage] at hj
    · have hold := h.issued j (by simpa [setStage, hjk] using hj)
      simpa [List.count_append, List.count_singleton, Ne.symm hjk] using hold
  · by_cases hjk : j = k
    · subst hjk
      obtain rfl : request = request' := by simpa [setStage] using hj
      simp [hreq, h.issued j hk]
    · have hold := h.ready j request' (by simpa [setStage, hjk] using hj)
      simpa [List.count_append, List.count_singleton, Ne.symm hjk] using hold
  · have hsame : ∀ j ∈ s.finished, s.stage j = (s.setStage k (.ready request)).stage j :=
      fun j hj => by
        have hjk : j ≠ k := fun heq => hnot (heq ▸ hj)
        simp [setStage, hjk]
    exact h.results.trans (List.map_congr_left hsame)

/-- A call that ends does what it would do alone on the transport as it is. -/
theorem Follows.finish (h : Follows c calls queue schedule s)
    {result : Except CallError (Option Reply)} {t : Transport} (hnot : k ∉ s.finished)
    (hperform : c.perform (calls k).1 (calls k).2 s.transport = (result, t)) :
    Follows c calls queue (schedule ++ [k]) (s.finish k result t) := by
  have hall : c.performAll (.ofQueue queue) ((s.finished ++ [k]).map calls) =
      ((c.performAll (.ofQueue queue) (s.finished.map calls)).1 ++ [result], t) := by
    rw [List.map_append, Client.performAll_append, h.transport]
    simp [Client.performAll, hperform]
  refine ⟨?_, fun j => ?_, fun j hj => ?_, fun j request hj => ?_, ?_, ?_⟩
  · exact h.nodup.append (List.nodup_singleton k) (by simpa using hnot)
  · by_cases hjk : j = k
    · subst hjk
      simp [CallRun.finish]
    · simpa [CallRun.finish, hjk] using h.mem_finished j
  · by_cases hjk : j = k
    · subst hjk
      simp [CallRun.finish] at hj
    · have hold := h.issued j (by simpa [CallRun.finish, hjk] using hj)
      simpa [List.count_append, List.count_singleton, Ne.symm hjk] using hold
  · by_cases hjk : j = k
    · subst hjk
      simp [CallRun.finish] at hj
    · have hold := h.ready j request (by simpa [CallRun.finish, hjk] using hj)
      simpa [List.count_append, List.count_singleton, Ne.symm hjk] using hold
  · exact congrArg Prod.snd hall
  · have hsame : ∀ j ∈ s.finished, s.stage j = (s.finish k result t).stage j := fun j hj => by
      have hjk : j ≠ k := fun heq => hnot (heq ▸ hj)
      simp [CallRun.finish, hjk]
    have hlast : (s.finish k result t).stage k = .finished result := by simp [CallRun.finish]
    change (c.performAll (.ofQueue queue) ((s.finished ++ [k]).map calls)).1.map .finished =
      (s.finished ++ [k]).map (s.finish k result t).stage
    rw [hall, List.map_append, List.map_append, h.results, List.map_congr_left hsame]
    simp [hlast]

theorem Follows.step (h : Follows c calls queue schedule s) (k : κ) :
    Follows c calls queue (schedule ++ [k]) (s.step c calls k) := by
  unfold CallRun.step
  cases hk : s.stage k with
  | issued =>
    have hnot : k ∉ s.finished := fun hmem => by simpa [hk] using (h.mem_finished k).mp hmem
    cases hreq : c.request (calls k) with
    | ok request => exact h.setStage_ready hk hreq
    | error e => exact h.finish hnot (Client.perform_eq_of_error hreq)
  | ready request =>
    have hnot : k ∉ s.finished := fun hmem => by simpa [hk] using (h.mem_finished k).mp hmem
    exact h.finish hnot (Client.perform_eq_of_ok (h.ready k request hk).1)
  | finished result =>
    refine ⟨h.nodup, h.mem_finished, fun j hj => ?_, fun j request hj => ?_, h.transport,
      h.results⟩
    · have hjk : k ≠ j := fun heq => by simp [← heq, hk] at hj
      simpa [List.count_append, List.count_singleton, hjk] using h.issued j hj
    · have hjk : k ≠ j := fun heq => by simp [← heq, hk] at hj
      simpa [List.count_append, List.count_singleton, hjk] using h.ready j request hj

end

theorem follows_play (c : Client) (calls : κ → Operation × Instant) (queue : List Response)
    (schedule : List κ) : Follows c calls queue schedule (play c calls queue schedule) := by
  induction schedule using List.reverseRecOn with
  | nil => exact follows_start
  | append_singleton schedule k ih =>
    rw [play, List.foldl_append]
    exact ih.step k

/-- Whatever the calls are and however they take their turns: a call that had two turns has ended,
and each ends once. The transport has one request for every ended call that has a request, in the
order in which they ended, made from that call alone, with the four header fields of its signature;
it has none for the others, which do nothing to a transport at all. The result of a call is what it
makes of the response with the number of its request, and of an empty success when there is no such
response. The same calls one after the other, in the order in which they ended, have the same
results and leave the same transport. -/
theorem play_answers_in_order (c : Client) (calls : κ → Operation × Instant)
    {queue : List Response} (hqueue : ∀ r ∈ queue, 100 ≤ r.status ∧ r.status ≤ 999)
    (schedule : List κ) :
    let s := play c calls queue schedule
    s.finished.Nodup ∧ (∀ k, k ∈ s.finished ↔ ∃ result, s.stage k = .finished result) ∧
    (∀ k, 2 ≤ schedule.count k → k ∈ s.finished) ∧
    s.transport.sent = s.finished.filterMap (fun k => (c.request (calls k)).toOption) ∧
    s.transport.queue = queue.drop s.transport.sent.length ∧
    (∀ r ∈ s.transport.sent, r.headers.names =
      ["x-amz-date", "x-amz-content-sha256", "host", "authorization"]) ∧
    (∀ before k after, s.finished = before ++ k :: after →
      s.stage k = .finished (c.resultAt queue (c.requests (before.map calls)).length (calls k))) ∧
    (∀ k e, c.request (calls k) = .error e →
      ∀ t, c.perform (calls k).1 (calls k).2 t = (.error e, t)) ∧
    (c.performAll (.ofQueue queue) (s.finished.map calls)).1.map .finished =
      s.finished.map s.stage ∧
    (c.performAll (.ofQueue queue) (s.finished.map calls)).2 = s.transport := by
  intro s
  have h : Follows c calls queue schedule s := follows_play c calls queue schedule
  have hvalid : ∀ r ∈ (Transport.ofQueue queue).queue, r.HasStatus := hqueue
  have htransport : s.transport =
      (Transport.ofQueue queue).after (c.requests (s.finished.map calls)) := by
    rw [← h.transport, Client.transport_performAll hvalid]
  have hsent : s.transport.sent = s.finished.filterMap fun k => (c.request (calls k)).toOption := by
    rw [htransport]
    simp [Transport.after, Transport.ofQueue, Client.requests, List.filterMap_map]
  refine ⟨h.nodup, h.mem_finished, fun k hk => ?_, hsent, ?_, fun r hr => ?_,
    fun before k after hsplit => ?_, fun k e he t => Client.perform_eq_of_error he, h.results,
    h.transport⟩
  · cases hs : s.stage k with
    | issued => have := h.issued k hs; omega
    | ready request => have := (h.ready k request hs).2; omega
    | finished result => exact (h.mem_finished k).mpr ⟨result, hs⟩
  · rw [htransport]
    simp [Transport.after, Transport.ofQueue]
  · rw [hsent] at hr
    obtain ⟨k, -, hk⟩ := List.mem_filterMap.mp hr
    cases hreq : c.request (calls k) with
    | error e => simp [hreq, Except.toOption] at hk
    | ok request =>
      obtain rfl : request = r := by simpa [hreq, Except.toOption] using hk
      exact Client.names_of_request hreq
  · have hlength : (before.map calls).length = before.length := List.length_map calls
    have hresult := Client.getElem?_performAll (c := c) hvalid (before.map calls)
      (after.map calls) (calls k)
    have hstage := congrArg (·[before.length]?) h.results
    rw [hsplit] at hstage
    simp only [List.map_append, List.map_cons, List.getElem?_map, ← hlength, hresult] at hstage
    simpa [Transport.ofQueue] using hstage.symm

/-- A call is refused while another one waits with its request. -/
theorem finished_play_refused {c : Client} {calls : κ → Operation × Instant}
    {queue : List Response} {i j : κ} {r : Request} {e : CallError} (hij : i ≠ j)
    (hi : c.request (calls i) = .ok r) (hj : c.request (calls j) = .error e) :
    (play c calls queue [i, j, i]).finished = [j, i] ∧
      [j, i].filterMap (fun k => (c.request (calls k)).toOption) = [r] ∧
      c.resultAt queue (c.requests [calls j]).length (calls i) =
        conclude (calls i).1 (queue.getD 0 ⟨200, []⟩) := by
  refine ⟨?_, by simp [hi, hj, Except.toOption], ?_⟩
  · simp [play, step, start, setStage, finish, hij, hij.symm, hi, hj]
  · simp [Client.resultAt, Client.requests, hi, hj, Except.toOption]

/-- The second call names no user. -/
theorem play_answers_in_order_refused :
    let c : Client := ⟨"http://h", ⟨"k", "s"⟩, {}⟩
    let calls (k : Bool) : Operation × Instant :=
      if k then (.removeUser {}, .epoch) else (.getInfo, .epoch)
    let queue : List Response := [⟨404, []⟩, ⟨200, []⟩]
    let turns := [false, true, false]
    (∀ r ∈ queue, 100 ≤ r.status ∧ r.status ≤ 999) ∧
    (play c calls queue turns).transport.sent.length = 1 ∧
    (play c calls queue turns).transport.queue = [⟨200, []⟩] ∧
    (play c calls queue turns).finished = [true, false] ∧
    (play c calls queue turns).stage false =
      .finished (.error (.unparsable ⟨"", some .truncated⟩)) := by
  intro c calls queue turns
  obtain ⟨signed, r, hsign⟩ := Signer.sign_succeeds {}
    ⟨.get, .absoluteForm .http ⟨"h", by decide⟩ "/admin/info" (some "format=json"), .empty⟩
    ⟨"k", "s"⟩ .epoch (show _ = some "h" by decide) (by decide) (by decide) (by decide)
  have hsigned : c.signedRequest .get "/info" .admin .epoch = .ok r :=
    Client.signedRequest_eq_ok_iff.mpr ⟨_, signed, by decide, hsign⟩
  have hinfo : c.request (calls false) = .ok r :=
    Client.request_eq_ok_iff.mpr ⟨.admin, rfl, hsigned⟩
  obtain ⟨e, hremove⟩ : ∃ e, c.request (calls true) = .error e := ⟨_, rfl⟩
  have hqueue : ∀ r ∈ queue, 100 ≤ r.status ∧ r.status ≤ 999 := by simp [queue]
  have hconclude : Client.conclude .getInfo ⟨404, []⟩ =
      .error (.unparsable ⟨"", some .truncated⟩) := by decide
  obtain ⟨-, -, -, hsent, hrest, -, hresult, -⟩ :=
    play_answers_in_order c calls hqueue turns
  obtain ⟨hfinished, hone, hfirst⟩ := finished_play_refused Bool.false_ne_true hinfo hremove
  rw [hfinished, hone] at hsent
  rw [hsent] at hrest
  refine ⟨hqueue, congrArg List.length hsent, hrest, hfinished, ?_⟩
  exact (hresult [true] false [] hfinished).trans
    (congrArg CallStage.finished (hfirst.trans hconclude))

end CallRun
end GatewayAdmin
