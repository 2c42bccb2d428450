import Mathlib.Algebra.Group.Nat.Defs
import Mathlib.Data.List.Induction
import Mathlib.Tactic.SplitIfs
import GatewayAdmin.Proofs.TimestampText

/-! Decimal digits are read as the number that they were written for. -/
namespace GatewayAdmin.Text

theorem digitValue?_eq {c : Char} (h : c.isDigit = true) :
    digitValue? c = some (c.toNat - '0'.toNat) := by
  obtain ⟨hlow, hhigh⟩ := Char.isDigit_iff_toNat.mp h
  have hlow' : '0' ≤ c := hlow
  have hhigh' : c ≤ '9' := hhigh
  rw [digitValue?, if_pos ⟨hlow', hhigh'⟩]

theorem foldl_digitValue? {cs : List Char} (h : ∀ c ∈ cs, c.isDigit = true) (n : Nat) :
    cs.foldl (fun acc c => acc.bind fun n => (digitValue? c).map (10 * n + ·)) (some n) =
      some (Nat.ofDigitChars 10 cs n) := by
  induction cs generalizing n with
  | nil => rfl
  | cons c cs ih =>
    obtain ⟨hc, hcs⟩ := List.forall_mem_cons.mp h
    rw [List.foldl_cons, Option.bind_some, digitValue?_eq hc, Option.map_some, ih hcs]
    rfl

theorem natural?_eq {cs : List Char} (h : ∀ c ∈ cs, c.isDigit = true) (hne : cs ≠ []) :
    natural? cs = some (Nat.ofDigitChars 10 cs 0) := by
  have hempty : cs.isEmpty = false := by simpa using hne
  rw [natural?, hempty]
  exact foldl_digitValue? h 0

theorem decimalChars_ne_nil (n : Nat) : decimalChars n ≠ [] := Nat.toDigits_ne_nil

theorem paddedChars_ne_nil (width n : Nat) : paddedChars width n ≠ [] :=
  List.append_ne_nil_of_right_ne_nil _ (decimalChars_ne_nil n)

theorem ofDigitChars_decimalChars (n : Nat) : Nat.ofDigitChars 10 (decimalChars n) 0 = n :=
  Nat.ofDigitChars_toDigits (by decide) (by decide)

theorem decimalChars_injective : Function.Injective decimalChars := by
  intro m n h
  calc
    m = Nat.ofDigitChars 10 (decimalChars m) 0 := (ofDigitChars_decimalChars m).symm
    _ = Nat.ofDigitChars 10 (decimalChars n) 0 := by rw [h]
    _ = n := ofDigitChars_decimalChars n

theorem ofDigitChars_paddedChars (width n : Nat) :
    Nat.ofDigitChars 10 (paddedChars width n) 0 = n := by
  have hzeros (k : Nat) : Nat.ofDigitChars 10 (List.replicate k '0') 0 = 0 := by
    induction k with
    | zero => rfl
    | succ k ih => exact ih
  rw [paddedChars, Nat.ofDigitChars, List.foldl_append]
  change Nat.ofDigitChars 10 (decimalChars n) (Nat.ofDigitChars 10 (List.replicate _ '0') 0) = n
  rw [hzeros, ofDigitChars_decimalChars]

theorem natural?_paddedChars (width n : Nat) : natural? (paddedChars width n) = some n := by
  rw [natural?_eq (fun _ => isDigit_of_mem_paddedChars) (paddedChars_ne_nil width n),
    ofDigitChars_paddedChars]

theorem length_paddedChars {width n : Nat} (hwidth : 0 < width) (h : n < 10 ^ width) :
    (paddedChars width n).length = width := by
  have hle : (decimalChars n).length ≤ width :=
    (Nat.length_toDigits_le_iff (by decide) hwidth).mpr h
  rw [paddedChars, List.length_append, List.length_replicate]
  omega

/-- Only zero begins with the digit zero. -/
theorem decimalChars_eq_cons {n : Nat} (hn : n ≠ 0) :
    ∃ c cs, decimalChars n = c :: cs ∧ c ≠ '0' := by
  induction n using Nat.strongRecOn with
  | ind n ih =>
    have hstep := Nat.toDigits_eq_if (b := 10) (n := n) (by decide)
    split_ifs at hstep with hsmall
    · exact ⟨Nat.digitChar n, [], hstep, fun h => hn (Nat.digitChar_eq_zero.mp h)⟩
    · obtain ⟨c, cs, hc, hne⟩ := ih (n / 10) (by omega) (by omega)
      refine ⟨c, cs ++ [Nat.digitChar (n % 10)], ?_, hne⟩
      rw [decimalChars, hstep, ← decimalChars, hc]
      rfl

theorem isDigit_of_digitValue? {c : Char} {n : Nat} (h : digitValue? c = some n) :
    c.isDigit = true := by
  unfold digitValue? at h
  split_ifs at h with hdigit
  exact Char.isDigit_iff_toNat.mpr hdigit

theorem isDigit_of_digitsValue? {cs : List Char} {n : Nat} (h : digitsValue? cs = some n) :
    ∀ c ∈ cs, c.isDigit = true := by
  induction cs using List.reverseRecOn generalizing n with
  | nil => simp
  | append_singleton cs c ih =>
    rw [digitsValue?, List.foldl_append, List.foldl_cons, List.foldl_nil] at h
    obtain ⟨m, hm, hlast⟩ := Option.bind_eq_some_iff.mp h
    obtain ⟨d, hd, -⟩ := Option.map_eq_some_iff.mp hlast
    simp only [List.mem_append, List.mem_singleton]
    rintro x (hx | rfl)
    · exact ih hm x hx
    · exact isDigit_of_digitValue? hd

theorem isDigit_of_natural? {cs : List Char} {n : Nat} (h : natural? cs = some n) :
    ∀ c ∈ cs, c.isDigit = true := by
  unfold natural? at h
  split_ifs at h
  exact isDigit_of_digitsValue? h

/-- A number that is read consists of digits, but for a plus sign. -/
theorem isDigit_of_unsigned? {bound n : Nat} {s : String} (h : unsigned? bound s = some n) :
    ∀ c ∈ s.toList, c = '+' ∨ c.isDigit = true := by
  unfold unsigned? at h
  obtain ⟨hvalue, -⟩ := Option.filter_eq_some_iff.mp h
  split at hvalue
  · rename_i r hs
    rw [hs]
    intro c hc
    exact (List.mem_cons.mp hc).imp_right (isDigit_of_natural? hvalue c)
  · intro c hc
    exact .inr (isDigit_of_natural? hvalue c hc)

theorem not_mem_of_unsigned? {bound n : Nat} {s : String} (h : unsigned? bound s = some n)
    {m : Char} (hplus : m ≠ '+') (hdigit : m.isDigit = false) : m ∉ s.toList := by
  intro hm
  rcases isDigit_of_unsigned? h m hm with he | he
  · exact hplus he
  · rw [hdigit] at he
    contradiction

end GatewayAdmin.Text
