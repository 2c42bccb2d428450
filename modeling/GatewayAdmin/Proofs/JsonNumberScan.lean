import GatewayAdmin.Proofs.JsonGrammar

/-! The numbers of a scan are those of the grammar: what has been read at each place inside a
number, and the places that a written number leads through. -/
namespace GatewayAdmin.Json

theorem digit?_eq_some_iff {b : UInt8} {d : Nat} :
    digit? b = some d ↔ b.toNat = d + 0x30 ∧ d ≤ 9 := by
  simp only [digit?, UInt8.le_iff_toNat_le, UInt8.reduceToNat]
  split_ifs with hb
  · simp only [Option.some.injEq]
    omega
  · simp only [false_iff]
    omega

/-- No number goes on with this octet. -/
def EndsNumber (b : UInt8) : Prop := digit? b = none ∧ b ≠ 0x2E ∧ ¬IsExponentMark b

instance : DecidablePred IsExponentMark := fun b => inferInstanceAs (Decidable (b = _ ∨ b = _))

instance : DecidablePred EndsNumber := fun b =>
  inferInstanceAs (Decidable (digit? b = none ∧ b ≠ _ ∧ ¬IsExponentMark b))

namespace NumberPlace

/-- The octets of a number up to a place inside it. -/
def Read : NumberPlace → List UInt8 → Prop
  | minus, text => text = [0x2D]
  | zero negative, text => text = minusSign negative ++ [0x30]
  | whole negative digits, text => ∃ d rest word, digits.reverse = d :: rest ∧ d ≠ 0 ∧
      Digits (d :: rest) word ∧ text = minusSign negative ++ word
  | point n, text => n.fraction = none ∧ n.exponent = none ∧
      ∃ before, n.Spelled before ∧ text = before ++ [0x2E]
  | fraction n digits, text => n.fraction = none ∧ n.exponent = none ∧ digits ≠ [] ∧
      ∃ before word, n.Spelled before ∧ Digits digits.reverse word ∧ text = before ++ 0x2E :: word
  | mark n, text => n.exponent = none ∧
      ∃ before m, n.Spelled before ∧ IsExponentMark m ∧ text = before ++ [m]
  | sign n negative, text => n.exponent = none ∧
      ∃ before m s, n.Spelled before ∧ IsExponentMark m ∧ ExponentSign negative s ∧
        text = before ++ m :: s
  | exponent n negative digits, text => n.exponent = none ∧ digits ≠ [] ∧
      ∃ before m s word, n.Spelled before ∧ IsExponentMark m ∧ ExponentSign negative s ∧
        Digits digits.reverse word ∧ text = before ++ m :: (s ++ word)

theorem read_zero (negative : Bool) {b : UInt8} (hb : digit? b = some 0) :
    (zero negative).Read (minusSign negative ++ [b]) := by
  obtain rfl : b = 0x30 := UInt8.toNat_inj.mp (digit?_eq_some_iff.mp hb).1
  rfl

theorem read_whole (negative : Bool) {b : UInt8} {d : Nat} (hb : digit? b = some d) (hd : d ≠ 0) :
    (whole negative [d]).Read (minusSign negative ++ [b]) :=
  ⟨d, [], [b], rfl, hd, by simp [Digits, hb], rfl⟩

theorem Read.spelled {p : NumberPlace} {text : List UInt8} {n : NumberText} (h : p.Read text)
    (hn : p.finish? = some n) : n.Spelled text := by
  cases p with
  | minus | point _ | mark _ | sign _ _ => simp [finish?] at hn
  | zero negative =>
    obtain rfl := Option.some.inj hn
    rw [h]
    exact .zero negative
  | whole negative digits =>
    obtain rfl := Option.some.inj hn
    obtain ⟨d, rest, word, hdigits, hd, hword, rfl⟩ := h
    rw [hdigits]
    exact .whole hd hword
  | fraction n digits =>
    obtain rfl := Option.some.inj hn
    obtain ⟨hf, he, hne, before, word, hbefore, hword, rfl⟩ := h
    exact .fraction hbefore hf he (by simpa using hne) hword
  | exponent n negative digits =>
    obtain rfl := Option.some.inj hn
    obtain ⟨he, hne, before, m, s, word, hbefore, hm, hs, hword, rfl⟩ := h
    exact .exponent hbefore he hm hs (by simpa using hne) hword

end NumberPlace

/-- What an octet has to mean behind the octets of a number. -/
def NumberStep.Follows : NumberStep → List UInt8 → UInt8 → Prop
  | .next p, text, b => p.Read (text ++ [b])
  | .over n, text, _ => n.Spelled text
  | .bad, _, _ => True

theorem stepAfterDigits_follows {allowed : Bool} {n : NumberText} {text : List UInt8}
    (h : n.Spelled text) (he : n.exponent = none) (hf : allowed = true → n.fraction = none)
    (b : UInt8) : (stepAfterDigits allowed n b).Follows text b := by
  unfold stepAfterDigits
  split_ifs with hpoint hmark
  · simp only [Bool.and_eq_true, decide_eq_true_eq] at hpoint
    obtain ⟨rfl, hallowed⟩ := hpoint
    exact ⟨hf hallowed, he, text, h, rfl⟩
  · refine ⟨he, text, b, h, ?_, rfl⟩
    simpa [IsExponentMark] using hmark
  · exact h

namespace NumberPlace

theorem Read.step {p : NumberPlace} {text : List UInt8} (h : p.Read text) (b : UInt8) :
    (p.step b).Follows text b := by
  cases p with
  | minus =>
    obtain rfl := h
    cases hb : digit? b with
    | none => simp [NumberPlace.step, hb, NumberStep.Follows]
    | some d =>
      cases d with
      | zero =>
        simp only [NumberPlace.step, hb]
        exact read_zero true hb
      | succ d =>
        simp only [NumberPlace.step, hb]
        exact read_whole true hb (by simp)
  | zero negative =>
    have hn := h.spelled rfl
    cases hb : digit? b with
    | none =>
      simp only [NumberPlace.step, hb]
      exact stepAfterDigits_follows hn rfl (fun _ => rfl) b
    | some d => simp [NumberPlace.step, hb, NumberStep.Follows]
  | whole negative digits =>
    have hn := h.spelled rfl
    cases hb : digit? b with
    | none =>
      simp only [NumberPlace.step, hb]
      exact stepAfterDigits_follows hn rfl (fun _ => rfl) b
    | some d =>
      simp only [NumberPlace.step, hb]
      obtain ⟨first, rest, word, hdigits, hfirst, hword, rfl⟩ := h
      refine ⟨first, rest ++ [d], word ++ [b], by simp [hdigits], hfirst, hword.snoc hb, ?_⟩
      rw [List.append_assoc]
  | point n =>
    obtain ⟨hf, he, before, hbefore, rfl⟩ := h
    cases hb : digit? b with
    | none => simp [NumberPlace.step, hb, NumberStep.Follows]
    | some d =>
      simp only [NumberPlace.step, hb]
      exact ⟨hf, he, by simp, before, [b], hbefore, by simp [Digits, hb], by simp⟩
  | fraction n digits =>
    have hn := h.spelled rfl
    obtain ⟨hf, he, hne, before, word, hbefore, hword, rfl⟩ := h
    cases hb : digit? b with
    | none =>
      simp only [NumberPlace.step, hb]
      exact stepAfterDigits_follows hn he (by simp) b
    | some d =>
      simp only [NumberPlace.step, hb]
      refine ⟨hf, he, by simp, before, word ++ [b], hbefore, ?_, by simp⟩
      simpa using hword.snoc hb
  | mark n =>
    obtain ⟨he, before, m, hbefore, hm, rfl⟩ := h
    cases hb : digit? b with
    | none =>
      simp only [NumberPlace.step, hb]
      split_ifs with hplus hminus
      · exact ⟨he, before, m, [b], hbefore, hm, hplus ▸ .plus, by simp⟩
      · exact ⟨he, before, m, [b], hbefore, hm, hminus ▸ .minus, by simp⟩
      · trivial
    | some d =>
      simp only [NumberPlace.step, hb]
      exact ⟨he, by simp, before, m, [], [b], hbefore, hm, .none, by simp [Digits, hb], by simp⟩
  | sign n negative =>
    obtain ⟨he, before, m, s, hbefore, hm, hs, rfl⟩ := h
    cases hb : digit? b with
    | none => simp [NumberPlace.step, hb, NumberStep.Follows]
    | some d =>
      simp only [NumberPlace.step, hb]
      exact ⟨he, by simp, before, m, s, [b], hbefore, hm, hs, by simp [Digits, hb], by simp⟩
  | exponent n negative digits =>
    have hn := h.spelled rfl
    obtain ⟨he, hne, before, m, s, word, hbefore, hm, hs, hword, rfl⟩ := h
    cases hb : digit? b with
    | none =>
      simp only [NumberPlace.step, hb]
      exact hn
    | some d =>
      simp only [NumberPlace.step, hb]
      refine ⟨he, by simp, before, m, s, word ++ [b], hbefore, hm, hs, ?_, by simp⟩
      simpa using hword.snoc hb

theorem step_over {p : NumberPlace} {n : NumberText} {b : UInt8} (hp : p.finish? = some n)
    (hb : EndsNumber b) : p.step b = .over n := by
  obtain ⟨hdigit, hpoint, hmark⟩ := hb
  have hafter (allowed : Bool) (m : NumberText) : stepAfterDigits allowed m b = .over m := by
    rw [IsExponentMark] at hmark
    simp [stepAfterDigits, hpoint, hmark]
  cases p with
  | minus | point _ | mark _ | sign _ _ => simp [finish?] at hp
  | zero _ | whole _ _ | fraction _ _ | exponent _ _ _ =>
    obtain rfl := Option.some.inj hp
    simp [NumberPlace.step, hdigit, hafter]

theorem step_point {p : NumberPlace} {n : NumberText} (hp : p.finish? = some n)
    (hf : n.fraction = none) (he : n.exponent = none) : p.step 0x2E = .next (.point n) := by
  have hdigit : digit? 0x2E = none := by decide
  cases p with
  | minus | point _ | mark _ | sign _ _ => simp [finish?] at hp
  | zero _ | whole _ _ =>
    obtain rfl := Option.some.inj hp
    simp [NumberPlace.step, hdigit, stepAfterDigits]
  | fraction _ _ | exponent _ _ _ =>
    obtain rfl := Option.some.inj hp
    simp at hf he

theorem step_mark {p : NumberPlace} {n : NumberText} {b : UInt8} (hp : p.finish? = some n)
    (he : n.exponent = none) (hb : IsExponentMark b) : p.step b = .next (.mark n) := by
  have hafter (allowed : Bool) (m : NumberText) :
      stepAfterDigits allowed m b = .next (.mark m) := by
    rcases hb with rfl | rfl <;> simp [stepAfterDigits]
  have hdigit : digit? b = none := by
    rcases hb with rfl | rfl <;> decide
  cases p with
  | minus | point _ | mark _ | sign _ _ => simp [finish?] at hp
  | zero _ | whole _ _ | fraction _ _ =>
    obtain rfl := Option.some.inj hp
    simp [NumberPlace.step, hdigit, hafter]
  | exponent _ _ _ =>
    obtain rfl := Option.some.inj hp
    simp at he

end NumberPlace
end GatewayAdmin.Json
