import GatewayAdmin.Proofs.PercentCode
import GatewayAdmin.Proofs.Splitting
import GatewayAdmin.Signature.Canonical

/-! The canonical path says exactly which segments a path has: encoded segments hold no slash, so
the slashes that are written are the ones that separate. -/
namespace GatewayAdmin.Canonical

open Text

theorem segments_ne_nil (p : String) : segments p ≠ [] := by
  simp [segments]

theorem slash_not_mem_encode (bs : List UInt8) : '/' ∉ Percent.encode bs :=
  Percent.not_mem_encode (by decide) bs

/-- The segments can be cut out of the canonical path again. -/
theorem splitOn_path (p : String) :
    (path p).toList.splitOn '/' = (segments p).map Percent.encode := by
  rw [path, String.toList_ofList]
  apply List.splitOn_intercalate
  · intro piece hp
    obtain ⟨bs, _, rfl⟩ := List.mem_map.mp hp
    exact slash_not_mem_encode bs
  · simpa using segments_ne_nil p

theorem path_eq_path_iff {p q : String} : path p = path q ↔ segments p = segments q := by
  constructor
  · intro h
    have hs : (segments p).map Percent.encode = (segments q).map Percent.encode := by
      rw [← splitOn_path, ← splitOn_path, h]
    exact Percent.encode_injective.list_map hs
  · intro h
    rw [path, path, h]

theorem not_mem_path {c : Char} (hc : Percent.isCodeChar c = false) (hs : c ≠ '/') (p : String) :
    c ∉ (path p).toList := by
  intro hm
  rw [path, String.toList_ofList] at hm
  rcases mem_of_mem_intercalate hm with h | ⟨piece, hp, hx⟩
  · exact hs (List.mem_singleton.mp h)
  · obtain ⟨bs, _, rfl⟩ := List.mem_map.mp hp
    exact Percent.not_mem_encode hc bs hx

end GatewayAdmin.Canonical
