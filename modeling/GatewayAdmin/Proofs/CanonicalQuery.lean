import GatewayAdmin.Proofs.PercentCode
import GatewayAdmin.Proofs.Splitting
import GatewayAdmin.Signature.Canonical

/-! The canonical query as a normal form. Its fields read back as the pairs of the query in sorted
order, so two queries have one canonical form exactly when they hold the same pairs. -/
namespace GatewayAdmin.Canonical

open Text

theorem pairLe_iff {a b : Pair} :
    pairLe a b = true ↔ a.1 < b.1 ∨ a.1 = b.1 ∧ a.2 ≤ b.2 := by
  unfold pairLe
  split_ifs with h
  · have hirr : ¬ b.1 < b.1 := Std.lt_irrefl
    simp [h, hirr]
  · simp [h, Std.lt_iff_le_and_ne]

theorem pairLe_total (a b : Pair) : (pairLe a b || pairLe b a) = true := by
  unfold pairLe
  by_cases h : a.1 = b.1
  · simpa [h] using (Std.le_total : a.2 ≤ b.2 ∨ b.2 ≤ a.2)
  · simpa [h, Ne.symm h] using (Std.le_total : a.1 ≤ b.1 ∨ b.1 ≤ a.1)

theorem pairLe_trans (a b c : Pair) (hab : pairLe a b = true) (hbc : pairLe b c = true) :
    pairLe a c = true := by
  rw [pairLe_iff] at hab hbc ⊢
  rcases hab with hab | ⟨hab, hab'⟩ <;> rcases hbc with hbc | ⟨hbc, hbc'⟩
  · exact .inl (Std.lt_trans hab hbc)
  · exact .inl (hbc ▸ hab)
  · exact .inl (hab ▸ hbc)
  · exact .inr ⟨hab.trans hbc, Std.le_trans hab' hbc'⟩

theorem pairLe_antisymm {a b : Pair} (hab : pairLe a b = true) (hba : pairLe b a = true) :
    a = b := by
  rw [pairLe_iff] at hab hba
  rcases hab with hab | ⟨he, hab⟩ <;> rcases hba with hba | ⟨he', hba⟩
  · exact absurd (Std.lt_trans hab hba) Std.lt_irrefl
  · exact absurd (he' ▸ hab) Std.lt_irrefl
  · exact absurd (he ▸ hba) Std.lt_irrefl
  · exact Prod.ext he (Std.le_antisymm hab hba)

theorem sortPairs_perm (ps : List Pair) : (sortPairs ps).Perm ps := List.mergeSort_perm ps pairLe

theorem sortPairs_pairwise (ps : List Pair) :
    (sortPairs ps).Pairwise fun a b => pairLe a b = true :=
  List.pairwise_mergeSort pairLe_trans pairLe_total ps

/-- Sorting forgets the order and nothing else. -/
theorem sortPairs_eq_iff {ps qs : List Pair} : sortPairs ps = sortPairs qs ↔ ps.Perm qs := by
  constructor
  · intro h
    exact (sortPairs_perm ps).symm.trans (h ▸ sortPairs_perm qs)
  · intro h
    have hp : (sortPairs ps).Perm (sortPairs qs) :=
      (sortPairs_perm ps).trans (h.trans (sortPairs_perm qs).symm)
    exact hp.eq_of_pairwise (fun _ _ _ _ => pairLe_antisymm) (sortPairs_pairwise ps)
      (sortPairs_pairwise qs)

theorem pairOfField_pairChars (p : Pair) : pairOfField (pairChars p) = p := by
  have hk : '=' ∉ Percent.encode p.1 := Percent.not_mem_encode (by decide) p.1
  simp [pairOfField, pairChars, splitFirst_append hk]

theorem pairChars_ne_nil (p : Pair) : pairChars p ≠ [] := by simp [pairChars]

theorem not_mem_pairChars {c : Char} (hc : Percent.isCodeChar c = false) (he : c ≠ '=')
    (p : Pair) : c ∉ pairChars p := by
  simp [pairChars, he, Percent.not_mem_encode hc]

/-- Fields that are joined are cut apart again. -/
theorem filter_splitOn_intercalate {fields : List (List Char)} (hne : ∀ field ∈ fields, field ≠ [])
    (hsep : ∀ field ∈ fields, '&' ∉ field) :
    ((['&'].intercalate fields).splitOn '&').filter (!·.isEmpty) = fields := by
  cases hfields : fields with
  | nil => simp
  | cons field rest =>
    rw [← hfields]
    have hfull : fields.filter (!·.isEmpty) = fields := by
      apply List.filter_eq_self.mpr
      intro f hf
      simpa using hne f hf
    rw [List.splitOn_intercalate _ hsep (by simp [hfields]), hfull]

theorem pairsOf_intercalate {fields : List (List Char)} (hne : ∀ field ∈ fields, field ≠ [])
    (hsep : ∀ field ∈ fields, '&' ∉ field) :
    pairsOf (['&'].intercalate fields) = fields.map pairOfField := by
  rw [pairsOf, filter_splitOn_intercalate hne hsep]

theorem filter_splitOn_pairChars (ps : List Pair) :
    ((['&'].intercalate (ps.map pairChars)).splitOn '&').filter (!·.isEmpty) =
      ps.map pairChars := by
  apply filter_splitOn_intercalate
  · intro field hf
    obtain ⟨p, _, rfl⟩ := List.mem_map.mp hf
    exact pairChars_ne_nil p
  · intro field hf
    obtain ⟨p, _, rfl⟩ := List.mem_map.mp hf
    exact not_mem_pairChars (by decide) (by decide) p

theorem pairsOf_intercalate_pairChars (ps : List Pair) :
    pairsOf (['&'].intercalate (ps.map pairChars)) = ps := by
  rw [pairsOf, filter_splitOn_pairChars, List.map_map]
  simp [Function.comp_def, pairOfField_pairChars]

theorem not_mem_intercalate_pairChars {c : Char} (hc : Percent.isCodeChar c = false) (he : c ≠ '=')
    (ha : c ≠ '&') (ps : List Pair) : c ∉ ['&'].intercalate (ps.map pairChars) := by
  intro hm
  rcases mem_of_mem_intercalate hm with hs | ⟨field, hf, hx⟩
  · exact ha (List.mem_singleton.mp hs)
  · obtain ⟨p, _, rfl⟩ := List.mem_map.mp hf
    exact not_mem_pairChars hc he p hx

theorem not_mem_query {c : Char} (hc : Percent.isCodeChar c = false) (he : c ≠ '=')
    (ha : c ≠ '&') (q : String) : c ∉ (query q).toList := by
  rw [query, String.toList_ofList]
  exact not_mem_intercalate_pairChars hc he ha _

theorem dropQuestionMark_of_not_mem {cs : List Char} (h : '?' ∉ cs) :
    dropQuestionMark cs = cs := by
  unfold dropQuestionMark
  split
  · simp at h
  · rfl

theorem pairs_query (q : String) : pairs (query q) = sortPairs (pairs q) := by
  have hq : '?' ∉ (query q).toList := not_mem_query (by decide) (by decide) (by decide) q
  rw [pairs, dropQuestionMark_of_not_mem hq, query, String.toList_ofList,
    pairsOf_intercalate_pairChars]

theorem query_eq_query_iff {q₁ q₂ : String} :
    query q₁ = query q₂ ↔ (pairs q₁).Perm (pairs q₂) := by
  constructor
  · intro h
    rw [← sortPairs_eq_iff, ← pairs_query, ← pairs_query, h]
  · intro h
    rw [query, query, sortPairs_eq_iff.mpr h]

/-- The pairs of a canonical query are those of the query it was made from, each as often as it
was there and none added, by rising key and then by rising value; and two queries have the same
canonical form exactly when one holds the pairs of the other in some order. -/
theorem query_normal_form (q : String) :
    (pairs (query q)).Perm (pairs q) ∧
    (pairs (query q)).Pairwise (fun a b => a.1 < b.1 ∨ a.1 = b.1 ∧ a.2 ≤ b.2) ∧
    ∀ q' : String, query q = query q' ↔ (pairs q).Perm (pairs q') := by
  refine ⟨?_, ?_, fun q' => query_eq_query_iff⟩
  · rw [pairs_query]
    exact sortPairs_perm (pairs q)
  · rw [pairs_query]
    exact (sortPairs_pairwise (pairs q)).imp pairLe_iff.mp

/-- Reading leaves out one question mark and empty fields; malformed escapes are text as it is. -/
example : pairs "?b&&a=%4&=x=%zz%C3&" = [(utf8 "b", []), (utf8 "a", utf8 "%4"),
    ([], utf8 "x=%zz" ++ [0xC3])] := by decide

end GatewayAdmin.Canonical
