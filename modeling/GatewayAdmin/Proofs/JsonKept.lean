import GatewayAdmin.Proofs.JsonReadBack

/-! What is known of a value that was read: it nests no deeper than it was read, its members are in
the order of their names, no name twice, and its integers are of 64 bits. Of all that can keep a
value from being read as it was written, only floating-point numbers are left. -/
namespace GatewayAdmin.Json

/-! ### Members -/

section
variable {α : Type} {name : String} {value : α} {kept entries : List (String × α)}
  {e : String × α}

theorem mem_insertMember (h : e ∈ insertMember name value kept) : e = (name, value) ∨ e ∈ kept := by
  induction kept with
  | nil => exact .inl (List.mem_singleton.mp h)
  | cons m kept ih =>
    obtain ⟨k, v⟩ := m
    rw [insertMember] at h
    split_ifs at h
    · exact List.mem_cons.mp h
    · exact (List.mem_cons.mp h).imp_right (List.mem_cons_of_mem _)
    · rcases List.mem_cons.mp h with h | h
      · exact .inr (h ▸ List.mem_cons_self)
      · exact (ih h).imp_right (List.mem_cons_of_mem _)

theorem sorted_insertMember (h : kept.Pairwise (·.1 < ·.1)) :
    (insertMember name value kept).Pairwise (·.1 < ·.1) := by
  induction kept with
  | nil => exact List.pairwise_singleton _ _
  | cons m kept ih =>
    obtain ⟨k, v⟩ := m
    obtain ⟨hfirst, hrest⟩ := List.pairwise_cons.mp h
    rw [insertMember]
    split_ifs with hless hsame
    · have hall : ∀ e ∈ (k, v) :: kept, name < e.1 :=
        List.forall_mem_cons.mpr ⟨hless, fun e he => String.lt_trans hless (hfirst e he)⟩
      exact List.pairwise_cons.mpr ⟨hall, h⟩
    · subst hsame
      exact List.pairwise_cons.mpr ⟨hfirst, hrest⟩
    · have hlater : k < name :=
        String.not_le.mp fun hle => hsame (String.le_antisymm hle (String.not_lt.mp hless))
      refine List.pairwise_cons.mpr ⟨fun e he => ?_, ih hrest⟩
      rcases mem_insertMember he with rfl | he
      · exact hlater
      · exact hfirst e he

theorem gather_append_singleton (entries : List (String × α)) (e : String × α) :
    gather (entries ++ [e]) = insertMember e.1 e.2 (gather entries) := by
  rw [gather, List.foldl_append]
  rfl

theorem mem_of_mem_gather (h : e ∈ gather entries) : e ∈ entries := by
  induction entries using List.reverseRecOn with
  | nil => exact h
  | append_singleton entries last ih =>
    rw [gather_append_singleton] at h
    rcases mem_insertMember h with rfl | h
    · exact List.mem_append_right _ List.mem_cons_self
    · exact List.mem_append_left _ (ih h)

theorem sorted_gather (entries : List (String × α)) : (gather entries).Pairwise (·.1 < ·.1) := by
  induction entries using List.reverseRecOn with
  | nil => exact .nil
  | append_singleton entries last ih =>
    rw [gather_append_singleton]
    exact sorted_insertMember ih

end

/-! ### Numbers -/

theorem Significand.value_ofDigits_le {n : Nat} {digits : List Nat} (h : n ≤ maxUInt64) :
    (ofDigits n digits).value ≤ maxUInt64 := by
  have hstep (s : Significand) (d : Nat) (hs : s.value ≤ maxUInt64) :
      (s.push d).value ≤ maxUInt64 := by
    rw [push]
    split_ifs with hfits
    · simp only [Bool.and_eq_true, decide_eq_true_eq] at hfits
      exact hfits.2
    · exact hs
  have hrun (s : Significand) (hs : s.value ≤ maxUInt64) :
      (digits.foldl push s).value ≤ maxUInt64 := by
    induction digits generalizing s with
    | nil => exact hs
    | cons d digits ih => exact ih (s.push d) (hstep s d hs)
  exact hrun ⟨n, 0⟩ h

/-- A number with a fraction, an exponent or too many digits is no integer. -/
theorem NumberText.float?_ne_integer (t : NumberText) (n : Int) : t.float? ≠ some (.integer n) := by
  have hscaled (significand : Nat) (exponent : Int) :
      (scale? significand exponent).map (signedFloat t.negative) ≠ some (.integer n) := by
    intro h
    obtain ⟨f, -, hf⟩ := Option.map_eq_some_iff.mp h
    simp [signedFloat] at hf
  intro h
  rw [float?] at h
  dsimp only at h
  split at h
  · exact hscaled _ _ h
  · split at h
    · exact hscaled _ _ h
    · simp [signedFloat] at h

theorem NumberText.isJsonInteger_of_number? {t : NumberText} {n : Int}
    (h : t.number? = some (.integer n)) : IsJsonInteger n := by
  have hvalue : (Significand.ofDigits 0 t.whole).value ≤ maxUInt64 :=
    Significand.value_ofDigits_le (Nat.zero_le _)
  simp only [number?] at h
  generalize (Significand.ofDigits 0 t.whole).value = value at h hvalue
  rw [maxUInt64] at hvalue
  unfold IsJsonInteger
  split_ifs at h with hwhole hpositive hnegative
  · obtain rfl : (value : Int) = n := by simpa using h
    omega
  · obtain rfl : -(value : Int) = n := by simpa using h
    simp only [Bool.and_eq_true, decide_eq_true_eq] at hnegative
    omega
  · simp [signedFloat] at h
  · exact absurd h (t.float?_ne_integer n)

theorem NumberText.isJsonInteger_of_read {t : NumberText} {n : Int}
    (h : t.read = .ok (.integer n)) : IsJsonInteger n := by
  rw [read] at h
  split at h
  next number hnumber =>
    obtain rfl : number = .integer n := by simpa using h
    exact isJsonInteger_of_number? hnumber
  · simp at h

/-! ### Values -/

/-- The value nests at most this deep, and it can be kept in full if its numbers are integers. -/
structure Value.Kept (v : Value) (depth : Nat) : Prop where
  height : v.height ≤ depth
  exact : v.Integral → v.Exact

namespace Value

variable {depth : Nat}

theorem kept_null : null.Kept depth := ⟨Nat.zero_le _, fun _ => .null⟩

theorem kept_bool (b : Bool) : (bool b).Kept depth := ⟨Nat.zero_le _, fun _ => .bool b⟩

theorem kept_string (s : String) : (string s).Kept depth := ⟨Nat.zero_le _, fun _ => .string s⟩

theorem kept_number {n : Number} (h : ∀ k, n = .integer k → IsJsonInteger k) :
    (number n).Kept depth := by
  refine ⟨Nat.zero_le _, fun hn => ?_⟩
  cases hn with
  | integer k => exact .integer (h k rfl)

theorem Kept.array {items : List Value} (h : ∀ v ∈ items, v.Kept depth) :
    (array items).Kept (depth + 1) := by
  refine ⟨height_array_le_iff.mpr ⟨depth, rfl, fun v hv => (h v hv).height⟩, fun hitems => ?_⟩
  cases hitems with
  | array hitems => exact .array fun v hv => (h v hv).exact (hitems v hv)

theorem Kept.object {members : List (String × Value)} (hsorted : members.Pairwise (·.1 < ·.1))
    (h : ∀ m ∈ members, m.2.Kept depth) : (object members).Kept (depth + 1) := by
  refine ⟨height_object_le_iff.mpr ⟨depth, rfl, fun m hm => (h m hm).height⟩, fun hmembers => ?_⟩
  cases hmembers with
  | object hmembers => exact .object hsorted fun m hm => (h m hm).exact (hmembers m hm)

end Value

theorem Draft.kept_of_readValue {depth : Nat} {d : Draft} {v : Value}
    (h : d.readValue depth = .ok v) : v.Kept depth := by
  induction depth using Nat.strongRecOn generalizing d v with
  | ind depth ih =>
    cases readsTo_of_readValue h with
    | null => exact Value.kept_null
    | bool b => exact Value.kept_bool b
    | number hn =>
      apply Value.kept_number
      intro k hk
      exact NumberText.isJsonInteger_of_read (hk ▸ hn)
    | string _ => exact Value.kept_string _
    | @array inner _ _ hvalues =>
      apply Value.Kept.array
      intro v hv
      obtain ⟨d, -, hd⟩ := exists_right_of_mem hvalues.flip hv
      exact ih inner (Nat.lt_succ_self inner) hd
    | @object inner _ _ hentries =>
      apply Value.Kept.object (sorted_gather _)
      intro m hm
      obtain ⟨e, -, -, he⟩ := exists_right_of_mem hentries.flip (mem_of_mem_gather hm)
      exact ih inner (Nat.lt_succ_self inner) he

end GatewayAdmin.Json
