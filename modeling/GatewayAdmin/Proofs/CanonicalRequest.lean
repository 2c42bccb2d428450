import GatewayAdmin.Proofs.CanonicalPath
import GatewayAdmin.Proofs.CanonicalQuery
import GatewayAdmin.Proofs.Signing

/-! The canonical request as nine lines. No part of a request can hold a line break, so the lines
can be read back, and with them everything that the signature is meant to cover. -/
namespace GatewayAdmin

open Text

theorem isVisible_of_isTokenChar {c : Char} (h : isTokenChar c = true) : isVisible c = true := by
  have hm : AllVisible "!#$%&'*+-.^_|~".toList := by decide
  simp only [isTokenChar, Bool.or_eq_true, Bool.and_eq_true, decide_eq_true_eq,
    List.contains_iff_mem] at h
  rcases h with (((⟨hl, hu⟩ | ⟨hl, hu⟩) | ⟨hl, hu⟩) | h) | h
  · exact isVisible_of_between hl hu (by decide) (by decide)
  · exact isVisible_of_between hl hu (by decide) (by decide)
  · exact isVisible_of_between hl hu (by decide) (by decide)
  · exact hm c h
  · rw [isVisible_iff]
    omega

theorem Method.allVisible_name (m : Method) : AllVisible m.name.toList := by
  have ht := m.isToken
  simp only [GatewayAdmin.isToken, Bool.and_eq_true, List.all_eq_true] at ht
  exact fun c hc => isVisible_of_isTokenChar (ht.2 c hc)

theorem Method.eq_iff {m m' : Method} : m = m' ↔ m.name = m'.name := by
  cases m
  cases m'
  simp

namespace Canonical

/-- The lines of a canonical request, the empty one included that ends the header fields. -/
def lines (method : String) (uri : Uri) (v : SignedValues) : List String :=
  [method, path uri.path, query (uri.query?.getD ""), "host:" ++ trim v.host,
    "x-amz-content-sha256:" ++ trim v.contentSha256, "x-amz-date:" ++ trim v.amzDate, "",
    signedHeaders, unsignedPayload]

theorem request_eq_intercalate (method : String) (uri : Uri) (v : SignedValues) :
    (request method uri v).toList =
      ['\n'].intercalate ((lines method uri v).map String.toList) := by
  simp [request, headers, lines]

/-- Values that go into a line as they are. -/
structure SignedValues.Visible (v : SignedValues) : Prop where
  host : AllVisible v.host.toList
  contentSha256 : AllVisible v.contentSha256.toList
  amzDate : AllVisible v.amzDate.toList

theorem newline_not_mem_lines (method : Method) (uri : Uri) {v : SignedValues} (hv : v.Visible) :
    ∀ line ∈ (lines method.name uri v).map String.toList, '\n' ∉ line := by
  have hp : '\n' ∉ (path uri.path).toList := not_mem_path (by decide) (by decide) _
  have hq : '\n' ∉ (query (uri.query?.getD "")).toList :=
    not_mem_query (by decide) (by decide) (by decide) _
  have hm := method.allVisible_name.newline_not_mem
  have hh := hv.host.newline_not_mem
  have hc := hv.contentSha256.newline_not_mem
  have hd := hv.amzDate.newline_not_mem
  simp only [lines, List.map_cons, List.map_nil, List.forall_mem_cons, String.toList_append,
    List.mem_append, not_or, trim_of_allVisible hv.host, trim_of_allVisible hv.contentSha256,
    trim_of_allVisible hv.amzDate]
  exact ⟨hm, hp, hq, ⟨by decide, hh⟩, ⟨by decide, hc⟩, ⟨by decide, hd⟩, by decide, by decide,
    by decide, by simp⟩

theorem splitOn_request (method : Method) (uri : Uri) {v : SignedValues} (hv : v.Visible) :
    (request method.name uri v).toList.splitOn '\n' =
      (lines method.name uri v).map String.toList := by
  rw [request_eq_intercalate]
  exact List.splitOn_intercalate _ (newline_not_mem_lines method uri hv) (by simp [lines])

theorem lines_inj (m₁ m₂ : Method) (u₁ u₂ : Uri) {v₁ v₂ : SignedValues} (hv₁ : v₁.Visible)
    (hv₂ : v₂.Visible) :
    lines m₁.name u₁ v₁ = lines m₂.name u₂ v₂ ↔ m₁ = m₂ ∧ segments u₁.path = segments u₂.path ∧
      (pairs (u₁.query?.getD "")).Perm (pairs (u₂.query?.getD "")) ∧ v₁ = v₂ := by
  obtain ⟨hh₁, hc₁, hd₁⟩ := hv₁
  obtain ⟨hh₂, hc₂, hd₂⟩ := hv₂
  cases v₁
  cases v₂
  simp only [lines, List.cons.injEq, String.append_right_inj, trim_of_allVisible hh₁,
    trim_of_allVisible hc₁, trim_of_allVisible hd₁, trim_of_allVisible hh₂, trim_of_allVisible hc₂,
    trim_of_allVisible hd₂, path_eq_path_iff, query_eq_query_iff, Method.eq_iff,
    SignedValues.mk.injEq, and_true]

theorem request_eq_iff (m₁ m₂ : Method) (u₁ u₂ : Uri) {v₁ v₂ : SignedValues}
    (hv₁ : v₁.Visible) (hv₂ : v₂.Visible) :
    request m₁.name u₁ v₁ = request m₂.name u₂ v₂ ↔
      m₁ = m₂ ∧ segments u₁.path = segments u₂.path ∧
      (pairs (u₁.query?.getD "")).Perm (pairs (u₂.query?.getD "")) ∧ v₁ = v₂ := by
  rw [← lines_inj m₁ m₂ u₁ u₂ hv₁ hv₂]
  constructor
  · intro h
    have hl := congrArg (fun text : String => text.toList.splitOn '\n') h
    simp only [splitOn_request m₁ u₁ hv₁, splitOn_request m₂ u₂ hv₂] at hl
    exact (List.map_injective_iff.mpr fun _ _ => String.toList_inj.mp) hl
  · intro h
    rw [← String.toList_inj, request_eq_intercalate, request_eq_intercalate, h]

end Canonical

namespace Signer

open Canonical

theorem visible_signedValues {uri : Uri} {host : String} (h : hostValue? uri = some host)
    (t : Instant) : SignedValues.Visible ⟨host, unsignedPayload, t.amzDate⟩ where
  host := allVisible_hostValue h
  contentSha256 := (by decide : AllVisible unsignedPayload.toList)
  amzDate := t.allVisible_amzDate

/-- The texts that are signed are nine lines each, and they are the same for two requests exactly
when the requests agree in method, path segments, query pairs, host value and time. -/
theorem canonicalRequest_eq_iff {s₁ s₂ : Signer} {r₁ r₂ r₁' r₂' : Request}
    {c₁ c₂ : Credentials} {t₁ t₂ : Instant} {a₁ a₂ : Signed}
    (h₁ : s₁.sign r₁ c₁ t₁ = .ok (a₁, r₁')) (h₂ : s₂.sign r₂ c₂ t₂ = .ok (a₂, r₂')) :
    (a₁.canonicalRequest.toList.splitOn '\n').length = 9 ∧
    (a₂.canonicalRequest.toList.splitOn '\n').length = 9 ∧
    (a₁.canonicalRequest = a₂.canonicalRequest ↔
      r₁.method = r₂.method ∧ segments r₁.uri.path = segments r₂.uri.path ∧
      (pairs (r₁.uri.query?.getD "")).Perm (pairs (r₂.uri.query?.getD "")) ∧
      hostValue? r₁.uri = hostValue? r₂.uri ∧ t₁.amzDate = t₂.amzDate) := by
  obtain ⟨host₁, hh₁, rfl, -, -, -, -⟩ := sign_eq_ok_iff.mp h₁
  obtain ⟨host₂, hh₂, rfl, -, -, -, -⟩ := sign_eq_ok_iff.mp h₂
  have hv₁ := visible_signedValues hh₁ t₁
  have hv₂ := visible_signedValues hh₂ t₂
  simp only [texts]
  rw [splitOn_request r₁.method r₁.uri hv₁, splitOn_request r₂.method r₂.uri hv₂]
  refine ⟨rfl, rfl, ?_⟩
  rw [request_eq_iff r₁.method r₂.method r₁.uri r₂.uri hv₁ hv₂, hh₁, hh₂]
  simp

/-- Two spellings of one request, with an escaped slash that separates nothing. -/
theorem canonicalRequest_eq_iff_respelled : ∃ a₁ r₁ a₂ r₂,
    ({} : Signer).sign ⟨.get, .absoluteForm .http ⟨"h:080", by decide⟩ "/a%2Fb/" (some "x=1&y=%7e"),
      .empty⟩ ⟨"k", "s"⟩ .epoch = .ok (a₁, r₁) ∧
    ({} : Signer).sign ⟨.get, .absoluteForm .http ⟨"u@h", by decide⟩ "/a%2fb/" (some "&y=~&x=1"),
      .empty⟩ ⟨"k", "s"⟩ .epoch = .ok (a₂, r₂) ∧
    (a₁.canonicalRequest.toList.splitOn '\n').length = 9 ∧
    a₁.canonicalRequest = a₂.canonicalRequest := by
  obtain ⟨a₁, r₁, h₁⟩ := sign_succeeds {}
    ⟨.get, .absoluteForm .http ⟨"h:080", by decide⟩ "/a%2Fb/" (some "x=1&y=%7e"), .empty⟩
    ⟨"k", "s"⟩ .epoch (show _ = some "h" by decide) (by decide) (by decide) (by decide)
  obtain ⟨a₂, r₂, h₂⟩ := sign_succeeds {}
    ⟨.get, .absoluteForm .http ⟨"u@h", by decide⟩ "/a%2fb/" (some "&y=~&x=1"), .empty⟩
    ⟨"k", "s"⟩ .epoch (show _ = some "h" by decide) (by decide) (by decide) (by decide)
  obtain ⟨nine, -, same⟩ := canonicalRequest_eq_iff h₁ h₂
  exact ⟨a₁, r₁, a₂, r₂, h₁, h₂, nine, same.mpr (by decide)⟩

end Signer
end GatewayAdmin
