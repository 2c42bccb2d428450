import GatewayAdmin.Json.Shortest
import GatewayAdmin.Proofs.JsonText

/-! Floating-point numbers are written as numbers of the grammar, whatever their bits: a whole part
without needless zeros, a fraction of at least one digit if there is a point, and an exponent of at
least one digit if there is a mark. -/
namespace GatewayAdmin.Json

open Text

/-- The text is a number of the grammar. -/
def IsNumberText (cs : List Char) : Prop := ∃ n : NumberText, n.Spelled (utf8Chars cs)

/-- The text is a number without a fraction and without an exponent. -/
def IsWholeText (cs : List Char) : Prop :=
  ∃ n : NumberText, n.Spelled (utf8Chars cs) ∧ n.fraction = none ∧ n.exponent = none

/-- The text is a number without an exponent. -/
def IsFixedText (cs : List Char) : Prop :=
  ∃ n : NumberText, n.Spelled (utf8Chars cs) ∧ n.exponent = none

section
variable {cs ds : List Char}

theorem isDigit_zero : ∀ x ∈ ['0'], x.isDigit = true := List.forall_mem_singleton.mpr rfl

theorem isWholeText_digits {c : Char} (hdigits : ∀ d ∈ c :: cs, d.isDigit = true)
    (hzero : c = '0' → cs = []) (negative : Bool) :
    IsWholeText (signChars negative ++ c :: cs) := by
  have h := NumberText.spelled_whole hdigits hzero negative
  rw [← utf8Chars_signChars] at h
  exact ⟨_, h, rfl, rfl⟩

theorem isWholeText_zero (negative : Bool) : IsWholeText (signChars negative ++ ['0']) :=
  isWholeText_digits isDigit_zero (fun _ => rfl) negative

theorem IsWholeText.isFixedText (h : IsWholeText cs) : IsFixedText cs := by
  obtain ⟨n, hn, -, he⟩ := h
  exact ⟨n, hn, he⟩

theorem IsFixedText.isNumberText (h : IsFixedText cs) : IsNumberText cs := by
  obtain ⟨n, hn, -⟩ := h
  exact ⟨n, hn⟩

theorem IsWholeText.fraction (h : IsWholeText cs) (hne : ds ≠ [])
    (hdigits : ∀ d ∈ ds, d.isDigit = true) : IsFixedText (cs ++ '.' :: ds) := by
  obtain ⟨n, hn, hf, he⟩ := h
  refine ⟨{ n with fraction := some (ds.map digitNumber) }, ?_, he⟩
  rw [utf8Chars_append]
  exact .fraction hn hf he (by simpa using hne) (digits_utf8Chars hdigits)

/-- Without digits for the fraction there is a zero behind the point. -/
theorem IsWholeText.fraction_or_zero (h : IsWholeText cs) (hdigits : ∀ d ∈ ds, d.isDigit = true) :
    IsFixedText (cs ++ '.' :: (if ds.isEmpty then ['0'] else ds)) := by
  split_ifs with hempty
  · exact h.fraction (List.cons_ne_nil '0' []) isDigit_zero
  · exact h.fraction (by simpa using hempty) hdigits

theorem IsFixedText.exponent (h : IsFixedText cs) (hne : ds ≠ [])
    (hdigits : ∀ d ∈ ds, d.isDigit = true) (negative : Bool) :
    IsNumberText (cs ++ 'e' :: (if negative then '-' else '+') :: ds) := by
  obtain ⟨n, hn, he⟩ := h
  have hne' : ds.map digitNumber ≠ [] := by simpa using hne
  have hspelled {sign : List UInt8} (hs : ExponentSign negative sign) :
      NumberText.Spelled { n with exponent := some (negative, ds.map digitNumber) }
        (utf8Chars cs ++ 0x65 :: (sign ++ utf8Chars ds)) :=
    .exponent hn he (.inl rfl) hs hne' (digits_utf8Chars hdigits)
  refine ⟨{ n with exponent := some (negative, ds.map digitNumber) }, ?_⟩
  rw [utf8Chars_append]
  cases negative with
  | false => exact hspelled .plus
  | true => exact hspelled .minus

end

namespace Shortest

/-- The digits of a decimal number: the first is a zero only in zero itself. -/
def Decimal.IsNormal (d : Decimal) : Prop :=
  ∃ c cs, d.digits = c :: cs ∧ (∀ x ∈ c :: cs, x.isDigit = true) ∧
    (c = '0' → cs = [] ∧ d.exponent = 0)

/-- Dropping at the end stops before a first character that is not to be dropped. -/
theorem dropWhile_reverse_cons {p : Char → Bool} {c : Char} (hc : p c = false) (cs : List Char) :
    ∃ ds, ((c :: cs).reverse.dropWhile p).reverse = c :: ds ∧ ds ⊆ cs := by
  have hlast : [c].dropWhile p = [c] := by simp [hc]
  refine ⟨(cs.reverse.dropWhile p).reverse, ?_, ?_⟩
  · rw [List.reverse_cons, List.dropWhile_append, hlast]
    split_ifs with hempty
    · rw [List.isEmpty_iff.mp hempty]
      rfl
    · simp
  · intro x hx
    have hmem := List.dropWhile_subset p (List.mem_reverse.mp hx)
    exact List.mem_reverse.mp hmem

theorem Decimal.isNormal_ofNat {n : Nat} (hn : n ≠ 0) (lastPlace : Int) :
    (Decimal.ofNat n lastPlace).IsNormal := by
  obtain ⟨c, cs, hcons, hc⟩ := decimalChars_eq_cons hn
  have hdigits : ∀ x ∈ c :: cs, x.isDigit = true := hcons ▸ fun _ => isDigit_of_mem_decimalChars
  obtain ⟨ds, hds, hsub⟩ := dropWhile_reverse_cons (p := (· = '0')) (by simpa using hc) cs
  refine ⟨c, ds, ?_, ?_, fun h => absurd h hc⟩
  · rw [Decimal.ofNat, hcons]
    exact hds
  · intro x hx
    exact hdigits x (List.cons_subset_cons c hsub hx)

theorem isNormal_digits (b : Binary) : (digits b).IsNormal := by
  rw [digits]
  dsimp only
  generalize hhit : (List.range 19).findSome? _ = hit
  cases hit with
  | none => exact ⟨'0', [], rfl, isDigit_zero, fun _ => ⟨rfl, rfl⟩⟩
  | some d =>
    obtain ⟨k, -, hk⟩ := List.exists_of_findSome?_eq_some hhit
    obtain ⟨n, hn, rfl⟩ := Option.map_eq_some_iff.mp hk
    have hne : n ≠ 0 := by simpa using (Option.filter_eq_some_iff.mp hn).2
    exact Decimal.isNormal_ofNat hne _

theorem isDigit_of_mem_zeros {n : Nat} : ∀ x ∈ List.replicate n '0', x.isDigit = true := by
  intro x hx
  rw [List.eq_of_mem_replicate hx]
  rfl

theorem isNumberText_write {d : Decimal} (h : d.IsNormal) (negative : Bool) :
    IsNumberText (signChars negative ++ write d) := by
  obtain ⟨c, cs, hcons, hdigits, hzero⟩ := h
  obtain ⟨hc, hcs⟩ := List.forall_mem_cons.mp hdigits
  unfold write
  dsimp only
  rw [hcons]
  by_cases hplain : 0 ≤ d.exponent ∧ d.exponent < 16
  · -- The point stands behind the digits, with zeros between them, or among them.
    rw [if_pos hplain, List.take_succ_cons, List.drop_succ_cons, List.length_cons]
    generalize hzeros : List.replicate (d.exponent.toNat + 1 - (cs.length + 1)) '0' = zeros
    have hwhole : IsWholeText (signChars negative ++
        c :: (cs.take d.exponent.toNat ++ zeros)) := by
      refine isWholeText_digits (List.forall_mem_cons.mpr ⟨hc, ?_⟩) (fun h => ?_) negative
      · refine List.forall_mem_append.mpr ⟨fun x hx => hcs x (List.mem_of_mem_take hx), ?_⟩
        exact hzeros ▸ isDigit_of_mem_zeros
      · obtain ⟨rfl, hexponent⟩ := hzero h
        rw [← hzeros, hexponent]
        rfl
    have hlater : ∀ x ∈ cs.drop d.exponent.toNat, x.isDigit = true :=
      fun x hx => hcs x (List.mem_of_mem_drop hx)
    simpa using (hwhole.fraction_or_zero hlater).isNumberText
  rw [if_neg hplain]
  by_cases hsmall : -5 ≤ d.exponent ∧ d.exponent < 0
  · -- The digits stand behind the point, with zeros in front of them.
    rw [if_pos hsmall]
    have hne : List.replicate (d.exponent.natAbs - 1) '0' ++ c :: cs ≠ [] := by simp
    have hfixed := (isWholeText_zero negative).fraction hne
      (List.forall_mem_append.mpr ⟨isDigit_of_mem_zeros, hdigits⟩)
    simpa using hfixed.isNumberText
  · rw [if_neg hsmall]
    have hwhole : IsWholeText (signChars negative ++ [c]) :=
      isWholeText_digits (by simpa using hc) (fun _ => rfl) negative
    have hfixed : IsFixedText (signChars negative ++ [c] ++
        if (((c :: cs).length : Nat) : Int) = 1 then [] else '.' :: cs) := by
      split_ifs with hone
      · simpa using hwhole.isFixedText
      · have hne : cs ≠ [] := by
          rintro rfl
          exact hone rfl
        exact hwhole.fraction hne hcs
    have hexponent := hfixed.exponent (decimalChars_ne_nil d.exponent.natAbs)
      (fun _ => isDigit_of_mem_decimalChars) (decide (d.exponent < 0))
    simpa using hexponent

theorem isNumberText_text (bits : UInt64) : IsNumberText (text bits) := by
  have hsign : (if bits.toNat / Nat.pow 2 63 % 2 = 1 then ['-'] else []) =
      signChars (bits.toNat / Nat.pow 2 63 % 2 = 1) := by simp [signChars]
  unfold text
  dsimp only
  rw [hsign]
  generalize decide (bits.toNat / Nat.pow 2 63 % 2 = 1) = negative
  split_ifs with hzero
  · have hfixed := (isWholeText_zero negative).fraction (List.cons_ne_nil '0' []) isDigit_zero
    simpa using hfixed.isNumberText
  · exact isNumberText_write (isNormal_digits _) negative

end Shortest
end GatewayAdmin.Json
