import Mathlib.Tactic.SplitIfs
import Mathlib.Tactic.Tauto
import GatewayAdmin.Text.Utf8

/-! The octets of a text are read as that text. Texts are ordered by their octets. -/
namespace GatewayAdmin.Text

theorem isContinuation_iff {b : UInt8} :
    isContinuation b = true ↔ 0x80 ≤ b.toNat ∧ b.toNat ≤ 0xBF := by
  simp [isContinuation, UInt8.le_iff_toNat_le]

/-- The range of the second octet is narrower behind four of the lead octets. -/
theorem isSecond_of_bounds {lead b : UInt8} (hlow : 0xC2 ≤ lead.toNat) (hhigh : lead.toNat ≤ 0xF4)
    (hb : isContinuation b = true) (hE0 : lead.toNat = 0xE0 → 0xA0 ≤ b.toNat)
    (hED : lead.toNat = 0xED → b.toNat ≤ 0x9F) (hF0 : lead.toNat = 0xF0 → 0x90 ≤ b.toNat)
    (hF4 : lead.toNat = 0xF4 → b.toNat ≤ 0x8F) : isSecond lead b = true := by
  obtain ⟨hmin, hmax⟩ := isContinuation_iff.mp hb
  simp only [isSecond, UInt8.lt_iff_toNat_lt, ← UInt8.toNat_inj, UInt8.le_iff_toNat_le,
    UInt8.reduceToNat]
  split_ifs with h1 h2 h3 h4 h5 h6
  · omega
  · simpa [hmax] using hE0 h2
  · simpa [hmin] using hED h3
  · simpa [hmax] using hF0 h4
  · simpa [hmin] using hF4 h5
  · exact hb
  · omega

theorem not_lt_of_toNat_le {a b : UInt8} (h : b.toNat ≤ a.toNat) : ¬a < b :=
  UInt8.not_lt.mpr (UInt8.le_iff_toNat_le.mpr h)

section
variable {a b c d : UInt8} (rest : List UInt8)

theorem scalars_one (ha : a.toNat < 0x80) :
    scalars (a :: rest) = some (Char.ofNat a.toNat) :: scalars rest := by
  have hascii : a < 0x80 := UInt8.lt_iff_toNat_lt.mpr ha
  rw [scalars.eq_def]
  simp only [hascii, if_true]

theorem scalars_two (ha : 0xC2 ≤ a.toNat) (ha' : a.toNat < 0xE0) (hb : isSecond a b = true) :
    scalars (a :: b :: rest) = some (scalar2 a b) :: scalars rest := by
  have hascii : ¬a < 0x80 := not_lt_of_toNat_le (show 0x80 ≤ a.toNat by omega)
  have htwo : a < 0xE0 := UInt8.lt_iff_toNat_lt.mpr ha'
  rw [scalars.eq_def]
  simp only [hascii, htwo, hb, if_false, if_true, Bool.not_true, Bool.false_eq_true]

theorem scalars_three (ha : 0xE0 ≤ a.toNat) (ha' : a.toNat < 0xF0) (hb : isSecond a b = true)
    (hc : isContinuation c = true) :
    scalars (a :: b :: c :: rest) = some (scalar3 a b c) :: scalars rest := by
  have hascii : ¬a < 0x80 := not_lt_of_toNat_le (show 0x80 ≤ a.toNat by omega)
  have htwo : ¬a < 0xE0 := not_lt_of_toNat_le (show 0xE0 ≤ a.toNat by omega)
  have hthree : a < 0xF0 := UInt8.lt_iff_toNat_lt.mpr ha'
  rw [scalars.eq_def]
  simp only [hascii, htwo, hthree, hb, hc, if_false, if_true, Bool.not_true, Bool.false_eq_true]

theorem scalars_four (ha : 0xF0 ≤ a.toNat) (hb : isSecond a b = true)
    (hc : isContinuation c = true) (hd : isContinuation d = true) :
    scalars (a :: b :: c :: d :: rest) = some (scalar4 a b c d) :: scalars rest := by
  have hascii : ¬a < 0x80 := not_lt_of_toNat_le (show 0x80 ≤ a.toNat by omega)
  have htwo : ¬a < 0xE0 := not_lt_of_toNat_le (show 0xE0 ≤ a.toNat by omega)
  have hthree : ¬a < 0xF0 := not_lt_of_toNat_le (show 0xF0 ≤ a.toNat by omega)
  rw [scalars.eq_def]
  simp only [hascii, htwo, hthree, hb, hc, hd, if_false, Bool.not_true, Bool.false_eq_true]

end

theorem toNat_ofNat_add (n : Nat) {m k : Nat} (hm : 0 < m) (h : m + k ≤ 256) :
    (UInt8.ofNat (n % m + k)).toNat = n % m + k := by
  have hn := Nat.mod_lt n hm
  rw [UInt8.toNat_ofNat']
  omega

theorem isContinuation_ofNat (n : Nat) : isContinuation (UInt8.ofNat (n % 64 + 128)) = true := by
  have hn := Nat.mod_lt n (show 0 < 64 by decide)
  rw [isContinuation_iff, toNat_ofNat_add n (by decide) (by decide)]
  omega

theorem utf8Chars_append (cs ds : List Char) :
    utf8Chars (cs ++ ds) = utf8Chars cs ++ utf8Chars ds := List.flatMap_append

theorem utf8Chars_cons (c : Char) (cs : List Char) :
    utf8Chars (c :: cs) = String.utf8EncodeChar c ++ utf8Chars cs := rfl

/-- A character of seven bits is its own octet. -/
theorem utf8EncodeChar_of_ascii {c : Char} (h : c.toNat < 0x80) :
    String.utf8EncodeChar c = [UInt8.ofNat c.toNat] := by
  have hv : c.val.toNat < 0x80 := h
  fun_cases String.utf8EncodeChar c with
  | case1 v h1 => rfl
  | case2 v h1 h2 => omega
  | case3 v h1 h2 h3 => omega
  | case4 v h1 h2 h3 => omega

/-- Of any other character every octet has the eighth bit. -/
theorem high_of_mem_utf8EncodeChar {c : Char} (h : 0x80 ≤ c.toNat) :
    ∀ b ∈ String.utf8EncodeChar c, 0x80 ≤ b.toNat := by
  have hv : 0x80 ≤ c.val.toNat := h
  have hhigh (n k m : Nat) (hm : 0 < m) (hk : 0x80 ≤ k) (hsum : m + k ≤ 256) :
      0x80 ≤ (UInt8.ofNat (n % m + k)).toNat := by
    rw [toNat_ofNat_add n hm hsum]
    omega
  fun_cases String.utf8EncodeChar c with
  | case1 v h1 => omega
  | case2 v h1 h2 =>
    simp only [List.forall_mem_cons, List.not_mem_nil, false_imp_iff, implies_true, and_true]
    exact ⟨hhigh _ _ _ (by decide) (by decide) (by decide),
      hhigh _ _ _ (by decide) (by decide) (by decide)⟩
  | case3 v h1 h2 h3 =>
    simp only [List.forall_mem_cons, List.not_mem_nil, false_imp_iff, implies_true, and_true]
    exact ⟨hhigh _ _ _ (by decide) (by decide) (by decide),
      hhigh _ _ _ (by decide) (by decide) (by decide),
      hhigh _ _ _ (by decide) (by decide) (by decide)⟩
  | case4 v h1 h2 h3 =>
    simp only [List.forall_mem_cons, List.not_mem_nil, false_imp_iff, implies_true, and_true]
    exact ⟨hhigh _ _ _ (by decide) (by decide) (by decide),
      hhigh _ _ _ (by decide) (by decide) (by decide),
      hhigh _ _ _ (by decide) (by decide) (by decide),
      hhigh _ _ _ (by decide) (by decide) (by decide)⟩

/-- One character in front: its octets are read together. -/
theorem scalars_utf8EncodeChar (c : Char) (rest : List UInt8) :
    scalars (String.utf8EncodeChar c ++ rest) = some c :: scalars rest := by
  have hvalid : c.val.toNat < 0xD800 ∨ 0xDFFF < c.val.toNat ∧ c.val.toNat < 0x110000 := c.valid
  have hself : Char.ofNat c.val.toNat = c := Char.ofNat_toNat c
  fun_cases String.utf8EncodeChar c with
  | case1 v h1 =>
    have hn : (UInt8.ofNat v).toNat = v := by
      rw [UInt8.toNat_ofNat']
      omega
    rw [List.singleton_append, scalars_one rest (by omega), hn, hself]
  | case2 v h1 h2 =>
    have ha := toNat_ofNat_add (v / 64) (m := 32) (k := 0xC0) (by decide) (by decide)
    have hb := toNat_ofNat_add v (m := 64) (k := 0x80) (by decide) (by decide)
    have hsecond :
        isSecond (UInt8.ofNat (v / 64 % 32 + 0xC0)) (UInt8.ofNat (v % 64 + 0x80)) = true :=
      isSecond_of_bounds (by omega) (by omega) (isContinuation_ofNat v) (by omega) (by omega)
        (by omega) (by omega)
    have hv : (v / 64 % 32 + 0xC0 - 0xC0) * 64 + (v % 64 + 0x80 - 0x80) = v := by omega
    rw [List.cons_append, List.singleton_append, scalars_two rest (by omega) (by omega) hsecond,
      scalar2, ha, hb, hv, hself]
  | case3 v h1 h2 h3 =>
    have ha := toNat_ofNat_add (v / 4096) (m := 16) (k := 0xE0) (by decide) (by decide)
    have hb := toNat_ofNat_add (v / 64) (m := 64) (k := 0x80) (by decide) (by decide)
    have hc := toNat_ofNat_add v (m := 64) (k := 0x80) (by decide) (by decide)
    have hsecond :
        isSecond (UInt8.ofNat (v / 4096 % 16 + 0xE0)) (UInt8.ofNat (v / 64 % 64 + 0x80)) = true :=
      isSecond_of_bounds (by omega) (by omega) (isContinuation_ofNat (v / 64)) (by omega)
        (by omega) (by omega) (by omega)
    have hv : (v / 4096 % 16 + 0xE0 - 0xE0) * 4096 + (v / 64 % 64 + 0x80 - 0x80) * 64 +
        (v % 64 + 0x80 - 0x80) = v := by omega
    rw [List.cons_append, List.cons_append, List.singleton_append,
      scalars_three rest (by omega) (by omega) hsecond (isContinuation_ofNat v),
      scalar3, ha, hb, hc, hv, hself]
  | case4 v h1 h2 h3 =>
    have ha := toNat_ofNat_add (v / 262144) (m := 8) (k := 0xF0) (by decide) (by decide)
    have hb := toNat_ofNat_add (v / 4096) (m := 64) (k := 0x80) (by decide) (by decide)
    have hc := toNat_ofNat_add (v / 64) (m := 64) (k := 0x80) (by decide) (by decide)
    have hd := toNat_ofNat_add v (m := 64) (k := 0x80) (by decide) (by decide)
    have hsecond : isSecond (UInt8.ofNat (v / 262144 % 8 + 0xF0))
        (UInt8.ofNat (v / 4096 % 64 + 0x80)) = true :=
      isSecond_of_bounds (by omega) (by omega) (isContinuation_ofNat (v / 4096)) (by omega)
        (by omega) (by omega) (by omega)
    have hv : (v / 262144 % 8 + 0xF0 - 0xF0) * 262144 + (v / 4096 % 64 + 0x80 - 0x80) * 4096 +
        (v / 64 % 64 + 0x80 - 0x80) * 64 + (v % 64 + 0x80 - 0x80) = v := by omega
    rw [List.cons_append, List.cons_append, List.cons_append, List.singleton_append,
      scalars_four rest (by omega) hsecond (isContinuation_ofNat (v / 64)) (isContinuation_ofNat v),
      scalar4, ha, hb, hc, hd, hv, hself]

theorem scalars_utf8Chars (cs : List Char) : scalars (utf8Chars cs) = cs.map some := by
  induction cs with
  | nil => rfl
  | cons c cs ih =>
    rw [utf8Chars, List.flatMap_cons, scalars_utf8EncodeChar, ← utf8Chars, ih, List.map_cons]

theorem utf8Chars_injective : Function.Injective utf8Chars := by
  intro cs ds h
  have hscalars := congrArg scalars h
  rw [scalars_utf8Chars, scalars_utf8Chars] at hscalars
  exact (List.map_inj_right fun _ _ => Option.some.inj).mp hscalars

theorem ofUtf8Lossy_utf8 (s : String) : ofUtf8Lossy (utf8 s) = s := by
  simp [ofUtf8Lossy, utf8, scalars_utf8Chars, Function.comp_def]

theorem ofUtf8?_utf8 (s : String) : ofUtf8? (utf8 s) = some s := by
  simp [ofUtf8?, utf8, scalars_utf8Chars, Function.comp_def]

theorem utf8_injective : Function.Injective utf8 :=
  Function.LeftInverse.injective ofUtf8Lossy_utf8

theorem append_lt_append_iff {xs ys us vs : List UInt8} (h : xs.length = ys.length) :
    xs ++ us < ys ++ vs ↔ xs < ys ∨ xs = ys ∧ us < vs := by
  induction xs generalizing ys with
  | nil =>
    obtain rfl := List.length_eq_zero_iff.mp h.symm
    simp
  | cons x xs ih =>
    cases ys with
    | nil => exact absurd h (Nat.succ_ne_zero _)
    | cons y ys =>
      have hlength : xs.length = ys.length := Nat.succ.inj h
      rw [List.cons_append, List.cons_append, List.cons_lt_cons_iff, List.cons_lt_cons_iff,
        ih hlength, List.cons.injEq]
      tauto

end GatewayAdmin.Text
