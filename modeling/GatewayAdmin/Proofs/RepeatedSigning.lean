import Mathlib.Data.List.Basic
import GatewayAdmin.Proofs.Signing

/-! One request signed again and again. Signing reads the method and the URI of a request and only
writes header fields, so every call has the result that it would have on a request without any, and
of the fields that it sets the last successful call leaves its own. -/
namespace GatewayAdmin

namespace Headers

/-- The fields of other names than these, in their order. -/
def others (h : Headers) (names : List String) : Headers := ⟨h.fields.filter (·.1 ∉ names)⟩

/-- The fields of `new` take the place of all fields of these names. -/
def replace (h : Headers) (names : List String) (new : Headers) : Headers :=
  ⟨(h.others names).fields ++ new.fields⟩

theorem others_replace {h new : Headers} {names : List String} (hnew : new.names = names) :
    (h.replace names new).others names = h.others names := by
  have hnone : new.fields.filter (·.1 ∉ names) = [] := by
    refine List.filter_eq_nil_iff.mpr fun f hf => ?_
    have hmem : f.1 ∈ names := hnew ▸ List.mem_map_of_mem hf
    simpa using hmem
  simp only [replace, others, List.filter_append, List.filter_filter, Bool.and_self]
  rw [hnone, List.append_nil]

/-- Of two replacements of the same names only the later one is seen. -/
theorem replace_replace {h new new' : Headers} {names : List String} (hnew : new.names = names) :
    (h.replace names new).replace names new' = h.replace names new' := by
  rw [replace, others_replace hnew, replace]

end Headers

namespace Signer

open Text

/-- The names of the fields that signing sets, in the order in which it sets them. -/
def fieldNames : List String := ["x-amz-date", "x-amz-content-sha256", "host", "authorization"]

/-- The fields that signing sets, and no others. -/
def newFields (amzDate host authorization : String) : Headers :=
  ⟨[("x-amz-date", utf8 amzDate), ("x-amz-content-sha256", utf8 Canonical.unsignedPayload),
    ("host", utf8 host), ("authorization", utf8 authorization)]⟩

theorem setFields_eq_replace (h : Headers) (amzDate host authorization : String) :
    setFields h amzDate host authorization =
      h.replace fieldNames (newFields amzDate host authorization) := by
  have hother (f : String × List UInt8) :
      (decide (f.1 ≠ "authorization") && (decide (f.1 ≠ "host") &&
      (decide (f.1 ≠ "x-amz-content-sha256") && decide (f.1 ≠ "x-amz-date")))) =
        decide (f.1 ∉ fieldNames) := by
    simp [fieldNames, Bool.and_comm, Bool.and_assoc]
  simp only [setFields, Headers.set, Headers.erase, Headers.append, List.filter_append,
    List.filter_filter, Headers.replace, Headers.others, hother, newFields]
  simp

theorem setFields_empty (amzDate host authorization : String) :
    setFields .empty amzDate host authorization = newFields amzDate host authorization := rfl

/-- What signing makes of a request is what it makes of its method and its URI, with the new header
fields put in the place of old ones. -/
theorem sign_eq_map (s : Signer) (r : Request) (c : Credentials) (t : Instant) :
    s.sign r c t = (s.sign { r with headers := .empty } c t).map fun p =>
      (p.1, { r with headers := r.headers.replace fieldNames p.2.headers }) := by
  unfold sign
  dsimp only
  cases hostValue? r.uri with
  | none => rfl
  | some host =>
    dsimp only
    generalize s.texts c r.method r.uri _ t.dateStamp = signed
    rw [setFields_eq_replace r.headers, setFields_empty]
    cases checkValue "x-amz-date" t.amzDate with
    | error e => rfl
    | ok _ =>
      cases checkValue "host" host with
      | error e => rfl
      | ok _ =>
        cases checkValue "authorization" signed.authorization with
        | error e => rfl
        | ok _ => rfl

/-- Signing a request without header fields gives it each of the four once. -/
theorem names_of_sign_empty {s : Signer} {method : Method} {uri : Uri} {c : Credentials}
    {t : Instant} {signed : Signed} {r : Request}
    (h : s.sign ⟨method, uri, .empty⟩ c t = .ok (signed, r)) : r.headers.names = fieldNames := by
  obtain ⟨host, -, -, -, -, -, rfl⟩ := sign_eq_ok_iff.mp h
  rfl

end Signer

/-- One call of a signer; all of it may change from call to call. -/
structure SigningCall where
  signer : Signer
  credentials : Credentials
  time : Instant

namespace SigningCall

/-- The call on a request of the same method and URI that has no header fields. -/
def alone (k : SigningCall) (r : Request) : Except SigningError (Signed × Request) :=
  k.signer.sign { r with headers := .empty } k.credentials k.time

/-- The call on the request as it is. A call that fails leaves it so. -/
def run (k : SigningCall) (r : Request) : Except SigningError Signed × Request :=
  match k.signer.sign r k.credentials k.time with
  | .ok (signed, r') => (.ok signed, r')
  | .error e => (.error e, r)

/-- One call after the other, on one request. -/
def runAll : List SigningCall → Request → List (Except SigningError Signed) × Request
  | [], r => ([], r)
  | k :: ks, r =>
    let (result, r) := k.run r
    let (results, r) := runAll ks r
    (result :: results, r)

/-- What the last successful call makes of the request without header fields. -/
def lastSigned? (ks : List SigningCall) (r : Request) : Option Request :=
  ks.reverse.findSome? fun k => (k.alone r).toOption.map Prod.snd

section
variable {k : SigningCall} {ks : List SigningCall} {r r' : Request}

theorem alone_congr (hmethod : r'.method = r.method) (huri : r'.uri = r.uri) :
    k.alone r' = k.alone r := by
  rw [alone, alone, hmethod, huri]

theorem lastSigned?_congr (hmethod : r'.method = r.method) (huri : r'.uri = r.uri) :
    lastSigned? ks r' = lastSigned? ks r := by
  simp only [lastSigned?, alone_congr hmethod huri]

theorem lastSigned?_cons :
    lastSigned? (k :: ks) r = (lastSigned? ks r).or ((k.alone r).toOption.map Prod.snd) := by
  simp [lastSigned?, List.findSome?_append]

theorem names_of_lastSigned? {s : Request} (h : lastSigned? ks r = some s) :
    s.headers.names = Signer.fieldNames := by
  obtain ⟨k, -, hk⟩ := List.exists_of_findSome?_eq_some h
  cases ha : k.alone r with
  | error e => simp [ha, Except.toOption] at hk
  | ok out =>
    obtain ⟨signed, signedAlone⟩ := out
    obtain rfl : signedAlone = s := by simpa [ha, Except.toOption] using hk
    exact Signer.names_of_sign_empty ha

/-- One step: the result is that of the call alone, and only the header fields change. -/
theorem run_eq (k : SigningCall) (r : Request) :
    k.run r = ((k.alone r).map Prod.fst,
      { r with headers := ((k.alone r).toOption.map Prod.snd).elim r.headers fun s =>
          r.headers.replace Signer.fieldNames s.headers }) := by
  rw [run, Signer.sign_eq_map, ← alone]
  cases k.alone r with
  | error e => rfl
  | ok out => rfl

end

theorem runAll_cons (k : SigningCall) (ks : List SigningCall) (r : Request) :
    runAll (k :: ks) r =
      ((k.run r).1 :: (runAll ks (k.run r).2).1, (runAll ks (k.run r).2).2) := rfl

theorem run_keeps (k : SigningCall) (r : Request) :
    (k.run r).2.method = r.method ∧ (k.run r).2.uri = r.uri := by
  rw [run_eq]
  exact ⟨rfl, rfl⟩

theorem runAll_keeps (ks : List SigningCall) (r : Request) :
    (runAll ks r).2.method = r.method ∧ (runAll ks r).2.uri = r.uri := by
  induction ks generalizing r with
  | nil => exact ⟨rfl, rfl⟩
  | cons k ks ih =>
    obtain ⟨hmethod, huri⟩ := run_keeps k r
    rw [runAll_cons, ← hmethod, ← huri]
    exact ih (k.run r).2

theorem results_runAll (ks : List SigningCall) (r : Request) :
    (runAll ks r).1 = ks.map fun k => (k.alone r).map Prod.fst := by
  induction ks generalizing r with
  | nil => rfl
  | cons k ks ih =>
    obtain ⟨hmethod, huri⟩ := run_keeps k r
    have hlater : ∀ k' ∈ ks, (k'.alone (k.run r).2).map Prod.fst = (k'.alone r).map Prod.fst :=
      fun k' _ => by rw [alone_congr hmethod huri]
    rw [runAll_cons, List.map_cons, ih, List.map_congr_left hlater, run_eq]

theorem headers_runAll (ks : List SigningCall) (r : Request) :
    (runAll ks r).2.headers = (lastSigned? ks r).elim r.headers fun s =>
      r.headers.replace Signer.fieldNames s.headers := by
  induction ks generalizing r with
  | nil => rfl
  | cons k ks ih =>
    obtain ⟨hmethod, huri⟩ := run_keeps k r
    rw [runAll_cons, ih, lastSigned?_congr hmethod huri, lastSigned?_cons, run_eq]
    cases hlast : lastSigned? ks r with
    | none => rfl
    | some s =>
      cases ha : k.alone r with
      | error e => rfl
      | ok out =>
        -- The later success takes away the fields of this one along with the oldest.
        have hnames : out.2.headers.names = Signer.fieldNames := Signer.names_of_sign_empty ha
        exact Headers.replace_replace hnames

/-- Every call returns what it would return on a request without header fields. The method and the
URI stay. When no call succeeds the header fields stay too; otherwise all that have the name of a
field that signing sets make place for the four of the last successful call, one of each name, and
the others are left in their order. -/
theorem runAll_replaces_signing_fields (ks : List SigningCall) (r : Request) :
    (runAll ks r).1 = ks.map (fun k => (k.alone r).map Prod.fst) ∧
    (runAll ks r).2.method = r.method ∧ (runAll ks r).2.uri = r.uri ∧
    (runAll ks r).2.headers = (lastSigned? ks r).elim r.headers (fun s =>
      ⟨r.headers.fields.filter (·.1 ∉ Signer.fieldNames) ++ s.headers.fields⟩) ∧
    ∀ s ∈ lastSigned? ks r, s.headers.names = Signer.fieldNames := by
  refine ⟨?_, ?_, ?_, ?_, fun s hs => names_of_lastSigned? hs⟩
  · exact results_runAll ks r
  · exact (runAll_keeps ks r).1
  · exact (runAll_keeps ks r).2
  · exact headers_runAll ks r

end SigningCall
end GatewayAdmin
