import GatewayAdmin.Proofs.CanonicalRequest

/-! What the query line of a canonical request keeps of the query of its URI: every field, but for
a question mark at the very start. A query may begin with one, since only the first question mark of
a URI is a separator, and then the line says something else than the URI does. -/
namespace GatewayAdmin

open Text

namespace Canonical

/-- The third line of a canonical request. -/
def queryLine (text : String) : List Char := (text.toList.splitOn '\n').getD 2 []

/-- The query can be cut out of the request, whatever the values of the header fields are. -/
theorem queryLine_request (method : Method) (uri : Uri) (v : SignedValues) :
    queryLine (request method.name uri v) = (query (uri.query?.getD "")).toList := by
  have hm := method.allVisible_name.newline_not_mem
  have hp : '\n' ∉ (path uri.path).toList := not_mem_path (by decide) (by decide) _
  have hq : '\n' ∉ (query (uri.query?.getD "")).toList :=
    not_mem_query (by decide) (by decide) (by decide) _
  have htext : (request method.name uri v).toList =
      method.name.toList ++ '\n' :: ((path uri.path).toList ++
        '\n' :: ((query (uri.query?.getD "")).toList ++ '\n' :: ((headers v).toList ++
          '\n' :: (signedHeaders.toList ++ '\n' :: unsignedPayload.toList)))) := by
    simp [request]
  rw [queryLine, htext, List.splitOn_append_cons_self_of_not_mem hm,
    List.splitOn_append_cons_self_of_not_mem hp, List.splitOn_append_cons_self_of_not_mem hq]
  rfl

theorem pairsOf_query (q : String) : pairsOf (query q).toList = sortPairs (pairs q) := by
  have hq : '?' ∉ (query q).toList := not_mem_query (by decide) (by decide) (by decide) q
  rw [← pairs_query, pairs, dropQuestionMark_of_not_mem hq]

/-- The fields that count are those that are not empty, each on its own. -/
theorem pairsOf_perm {cs ds : List Char} (h : (cs.splitOn '&').Perm (ds.splitOn '&')) :
    (pairsOf cs).Perm (pairsOf ds) := (h.filter _).map _

/-- The number of octets in all the keys. -/
def keyOctets (ps : List Pair) : Nat := (ps.flatMap Prod.fst).length

theorem keyOctets_perm {ps qs : List Pair} (h : ps.Perm qs) : keyOctets ps = keyOctets qs :=
  (h.flatMap_right _).length_eq

theorem pairOfField_question (field : List Char) :
    pairOfField ('?' :: field) =
      (0x3F :: (pairOfField field).1, (pairOfField field).2) := by
  have hcut : splitFirst '=' ('?' :: field) =
      ('?' :: (splitFirst '=' field).1, (splitFirst '=' field).2) := by
    simp [splitFirst]
  simp only [pairOfField, hcut]
  rw [Percent.decode_cons_of_ne (by decide)]
  rfl

/-- A question mark that is data makes the first key longer. -/
theorem keyOctets_question (cs : List Char) :
    keyOctets (pairsOf ('?' :: cs)) = keyOctets (pairsOf cs) + 1 := by
  obtain ⟨field, rest, hs⟩ := List.exists_cons_of_ne_nil (List.splitOn_ne_nil '&' cs)
  have hq : ('?' :: cs).splitOn '&' = ('?' :: field) :: rest :=
    by simp [List.splitOn_cons_eq_if_modifyHead, hs]
  rw [pairsOf, pairsOf, hq, hs]
  cases field with
  | nil =>
    have hmark : pairOfField ['?'] = ([0x3F], []) := by decide
    simp [keyOctets, hmark]
  | cons c field =>
    simp [keyOctets, pairOfField_question]

theorem dropQuestionMark_of_head? {cs : List Char} (h : cs.head? ≠ some '?') :
    dropQuestionMark cs = cs := by
  unfold dropQuestionMark
  split
  · simp at h
  · rfl

/-- The line has the pairs of the query exactly when the query does not begin with a mark. -/
theorem pairsOf_query_perm_iff (q : String) :
    (pairsOf (query q).toList).Perm (pairsOf q.toList) ↔ q.toList.head? ≠ some '?' := by
  have hsorted : (pairsOf (query q).toList).Perm (pairsOf (dropQuestionMark q.toList)) := by
    rw [pairsOf_query]
    exact sortPairs_perm _
  constructor
  · intro h hmark
    obtain ⟨cs, hq⟩ : ∃ cs, q.toList = '?' :: cs := List.head?_eq_some_iff.mp hmark
    rw [hq] at h hsorted
    have hsame := keyOctets_perm (hsorted.symm.trans h)
    rw [keyOctets_question] at hsame
    simp only [dropQuestionMark] at hsame
    omega
  · intro h
    rwa [dropQuestionMark_of_head? h] at hsorted

theorem request_congr {uri uri' : Uri} (method : String) (v : SignedValues)
    (hpath : uri.path = uri'.path)
    (hquery : (pairs (uri.query?.getD "")).Perm (pairs (uri'.query?.getD ""))) :
    request method uri v = request method uri' v := by
  rw [request, request, hpath, query_eq_query_iff.mpr hquery]

end Canonical

namespace Signer

open Canonical

/-- What is signed of a URI is its host, its path and the pairs of its query. -/
theorem sign_congr {s : Signer} {c : Credentials} {t : Instant} {r : Request} {method : Method}
    {uri uri' : Uri} {headers headers' : Headers} {signed : Signed}
    (hhost : hostValue? uri = hostValue? uri') (hpath : uri.path = uri'.path)
    (hquery : (pairs (uri.query?.getD "")).Perm (pairs (uri'.query?.getD "")))
    (h : s.sign ⟨method, uri, headers⟩ c t = .ok (signed, r)) :
    ∃ r', s.sign ⟨method, uri', headers'⟩ c t = .ok (signed, r') := by
  obtain ⟨host, hh, rfl, hd, ho, ha, -⟩ := sign_eq_ok_iff.mp h
  refine ⟨_, sign_eq_ok_iff.mpr ⟨host, hhost ▸ hh, ?_, hd, ho, ha, rfl⟩⟩
  simp only [texts, request_congr method.name _ hpath hquery]

/-- The query line holds the pairs of the query behind a question mark at its start, if it has one,
and so the pairs of the query itself exactly when it has none. The order of the fields behind that
mark does not change the signature. -/
theorem queryLine_pairs (method : Method) (uri : Uri) (v : SignedValues) {q : String}
    (h : uri.query? = some q) :
    (pairsOf (queryLine (Canonical.request method.name uri v))).Perm
        (pairsOf (dropQuestionMark q.toList)) ∧
    ((pairsOf (queryLine (Canonical.request method.name uri v))).Perm (pairsOf q.toList) ↔
        q.toList.head? ≠ some '?') ∧
    ∀ (uri' : Uri) (q' : String), uri'.query? = some q' → hostValue? uri = hostValue? uri' →
      uri.path = uri'.path →
      ((dropQuestionMark q.toList).splitOn '&').Perm ((dropQuestionMark q'.toList).splitOn '&') →
      ∀ (s : Signer) (c : Credentials) (t : Instant) (headers headers' : Headers)
        (signed : Signed) (r : Request), s.sign ⟨method, uri, headers⟩ c t = .ok (signed, r) →
        ∃ r', s.sign ⟨method, uri', headers'⟩ c t = .ok (signed, r') := by
  rw [queryLine_request, h, Option.getD_some]
  refine ⟨?_, pairsOf_query_perm_iff q, ?_⟩
  · rw [pairsOf_query]
    exact sortPairs_perm _
  · intro uri' q' h' hhost hpath hfields s c t headers headers' signed r hsign
    refine sign_congr hhost hpath ?_ hsign
    rw [h, h', Option.getD_some, Option.getD_some]
    exact pairsOf_perm hfields

/-- Repeated keys, an escape and a bare key, in two orders and behind a mark in one of them. -/
theorem queryLine_pairs_reordered : ∃ signed r r',
    ({} : Signer).sign ⟨.get, .absoluteForm .http ⟨"h", by decide⟩ "/p" (some "b=1&a&b=%7e"),
      .empty⟩ ⟨"k", "s"⟩ .epoch = .ok (signed, r) ∧
    ({} : Signer).sign ⟨.get, .absoluteForm .http ⟨"h", by decide⟩ "/p" (some "?b=%7e&b=1&a"),
      .empty⟩ ⟨"k", "s"⟩ .epoch = .ok (signed, r') ∧
    (pairsOf (queryLine (Canonical.request "GET"
      (.absoluteForm .http ⟨"h", by decide⟩ "/p" (some "b=1&a&b=%7e")) ⟨"h", "c", "d"⟩))).Perm
        (pairsOf "b=1&a&b=%7e".toList) := by
  obtain ⟨signed, r, hsign⟩ := sign_succeeds {}
    ⟨.get, .absoluteForm .http ⟨"h", by decide⟩ "/p" (some "b=1&a&b=%7e"), .empty⟩
    ⟨"k", "s"⟩ .epoch (show _ = some "h" by decide) (by decide) (by decide) (by decide)
  obtain ⟨-, hfaithful, hreordered⟩ := queryLine_pairs .get
    (.absoluteForm .http ⟨"h", by decide⟩ "/p" (some "b=1&a&b=%7e")) ⟨"h", "c", "d"⟩ rfl
  obtain ⟨r', hsign'⟩ := hreordered
    (.absoluteForm .http ⟨"h", by decide⟩ "/p" (some "?b=%7e&b=1&a")) _ rfl (by decide) rfl
    (by decide) {} ⟨"k", "s"⟩ .epoch .empty .empty signed r hsign
  exact ⟨signed, r, r', hsign, hsign', hfaithful.mpr (by decide)⟩

/-- Two question marks: the second is data of the URI, but not of the line that is signed. And two
orders of the same fields, of which one begins with a mark, are signed as different requests. -/
theorem queryLine_drops_question_mark :
    Uri.parse? "http://h/p??a=1" =
      some (.absoluteForm .http ⟨"h", by decide⟩ "/p" (some "?a=1")) ∧
    ¬ (pairsOf (queryLine (Canonical.request "GET"
      (.absoluteForm .http ⟨"h", by decide⟩ "/p" (some "?a=1")) ⟨"h", "c", "d"⟩))).Perm
        (pairsOf "?a=1".toList) ∧
    ("?b&a".toList.splitOn '&').Perm ("a&?b".toList.splitOn '&') ∧
    Canonical.request "GET" (.absoluteForm .http ⟨"h", by decide⟩ "/p" (some "?b&a"))
        ⟨"h", "c", "d"⟩ ≠
      Canonical.request "GET" (.absoluteForm .http ⟨"h", by decide⟩ "/p" (some "a&?b"))
        ⟨"h", "c", "d"⟩ := by
  refine ⟨by decide, ?_, by decide, ?_⟩
  · have hline := queryLine_request .get
      (.absoluteForm .http ⟨"h", by decide⟩ "/p" (some "?a=1")) ⟨"h", "c", "d"⟩
    have hmark := (pairsOf_query_perm_iff "?a=1").not.mpr (by decide)
    rw [show "GET" = Method.get.name from rfl, hline]
    exact hmark
  · intro h
    have hlines := congrArg queryLine h
    rw [show "GET" = Method.get.name from rfl, queryLine_request, queryLine_request,
      String.toList_inj, query_eq_query_iff] at hlines
    exact absurd hlines (by decide)

end Signer
end GatewayAdmin
