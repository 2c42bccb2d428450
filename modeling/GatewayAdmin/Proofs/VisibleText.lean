import GatewayAdmin.Text.Cut
import Mathlib.Data.List.Basic

/-! Texts of visible ASCII characters. Trimming leaves them as they are and they hold no line
break, so they can be put into a line and read back from it. -/
namespace GatewayAdmin.Text

/-- The characters from `!` to `~`. -/
def isVisible (c : Char) : Bool := 0x21 ≤ c.toNat && c.toNat ≤ 0x7E

theorem isVisible_iff (c : Char) : isVisible c = true ↔ 0x21 ≤ c.toNat ∧ c.toNat ≤ 0x7E := by
  simp [isVisible]

theorem isVisible_of_between {low high c : Char} (hl : low ≤ c) (hh : c ≤ high)
    (low_visible : isVisible low = true) (high_visible : isVisible high = true) :
    isVisible c = true := by
  rw [isVisible_iff] at low_visible high_visible ⊢
  have h₁ : low.toNat ≤ c.toNat := hl
  have h₂ : c.toNat ≤ high.toNat := hh
  omega

/-- A class of ASCII characters lies in another one if it does so among the first 128. -/
theorem isClass_of_ascii {p q : Char → Bool} (hp : ∀ c, p c = true → c.toNat < 128)
    (h : ∀ n < 128, p (Char.ofNat n) = true → q (Char.ofNat n) = true) {c : Char}
    (hc : p c = true) : q c = true := by
  have hq := h c.toNat (hp c hc)
  rw [Char.ofNat_toNat] at hq
  exact hq hc

/-- A mark outside of a class is in no text of that class. -/
theorem not_mem_of_class {p : Char → Bool} {cs : List Char} (h : ∀ c ∈ cs, p c = true) {m : Char}
    (hm : p m = false) : m ∉ cs := by
  intro hmem
  rw [h m hmem] at hm
  contradiction

theorem isBlank_of_isVisible {c : Char} (h : isVisible c = true) : isBlank c = false := by
  rw [isVisible_iff] at h
  simp only [isBlank, Bool.or_eq_false_iff, Bool.and_eq_false_iff, decide_eq_false_iff_not]
  omega

def AllVisible (cs : List Char) : Prop := ∀ c ∈ cs, isVisible c = true

instance (cs : List Char) : Decidable (AllVisible cs) :=
  List.decidableBAll (isVisible · = true) cs

@[simp] theorem AllVisible.nil : AllVisible [] := by simp [AllVisible]

@[simp] theorem allVisible_append {xs ys : List Char} :
    AllVisible (xs ++ ys) ↔ AllVisible xs ∧ AllVisible ys := List.forall_mem_append

@[simp] theorem allVisible_cons {x : Char} {xs : List Char} :
    AllVisible (x :: xs) ↔ isVisible x = true ∧ AllVisible xs := List.forall_mem_cons

theorem AllVisible.subset {xs ys : List Char} (h : AllVisible ys) (hs : xs ⊆ ys) :
    AllVisible xs := fun c hc => h c (hs hc)

theorem AllVisible.newline_not_mem {cs : List Char} (h : AllVisible cs) : '\n' ∉ cs :=
  not_mem_of_class h (by decide)

theorem dropWhile_isBlank {cs : List Char} (h : AllVisible cs) : cs.dropWhile isBlank = cs := by
  cases cs with
  | nil => rfl
  | cons c cs => simp [isBlank_of_isVisible (h c (by simp))]

theorem trimChars_of_allVisible {cs : List Char} (h : AllVisible cs) : trimChars cs = cs := by
  have hr : AllVisible cs.reverse := h.subset (by simp)
  rw [trimChars, dropWhile_isBlank h, dropEndWhile, dropWhile_isBlank hr, List.reverse_reverse]

theorem trim_of_allVisible {s : String} (h : AllVisible s.toList) : trim s = s := by
  rw [trim, trimChars_of_allVisible h, String.ofList_toList]

end GatewayAdmin.Text
