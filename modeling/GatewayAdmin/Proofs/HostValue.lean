import GatewayAdmin.Proofs.DecimalText
import GatewayAdmin.Proofs.Signing
import Mathlib.Data.List.TakeWhile

/-! The host value of a request as a name for its target. A host without brackets holds no colon,
and a bracketed one ends with its bracket, so the port can be taken off again; and a port that is
the default of the scheme is not there to be taken off, however it was written. -/
namespace GatewayAdmin

open Text

namespace Authority

open AuthorityScan

/-- A host either has no colon at all or ends with the bracket of an address. -/
theorem colon_not_mem_or_getLast? (a : Authority) :
    ':' ∉ a.hostChars ∨ a.hostChars.getLast? = some ']' := by
  unfold hostChars
  dsimp only
  split_ifs
  · exact .inr List.getLast?_concat
  · left
    intro hm
    simpa using List.mem_takeWhile_imp hm

/-- The port that follows a host, with the colon in front of it. -/
def portChars (port : Option Nat) : List Char := port.elim [] (':' :: decimalChars ·)

theorem colon_not_mem_decimalChars (n : Nat) : ':' ∉ decimalChars n :=
  not_mem_of_class (fun _ => isDigit_of_mem_decimalChars) (by decide)

/-- A host is no other host with a port behind it. -/
theorem hostChars_ne_append_port (a b : Authority) (n : Nat) :
    a.hostChars ≠ b.hostChars ++ ':' :: decimalChars n := by
  intro h
  rcases a.colon_not_mem_or_getLast? with hcolon | hlast
  · rw [h] at hcolon
    simp at hcolon
  · rw [h] at hlast
    rw [← List.singleton_append, ← List.append_assoc,
      List.getLast?_append_of_ne_nil _ (decimalChars_ne_nil n)] at hlast
    exact absurd (isDigit_of_mem_decimalChars (List.mem_of_getLast? hlast)) (by decide)

theorem hostChars_append_portChars_inj {a b : Authority} {p q : Option Nat} :
    a.hostChars ++ portChars p = b.hostChars ++ portChars q ↔
      a.hostChars = b.hostChars ∧ p = q := by
  constructor
  · intro h
    cases p with
    | none =>
      cases q with
      | none => exact ⟨by simpa [portChars] using h, rfl⟩
      | some n => exact absurd (by simpa [portChars] using h) (a.hostChars_ne_append_port b n)
    | some m =>
      cases q with
      | none => exact absurd (by simpa [portChars] using h.symm) (b.hostChars_ne_append_port a m)
      | some n =>
        have hport : decimalChars m = decimalChars n := by
          rw [← afterLast_append_cons (colon_not_mem_decimalChars m) a.hostChars,
            ← afterLast_append_cons (colon_not_mem_decimalChars n) b.hostChars]
          exact congrArg (afterLast ':') h
        obtain rfl := decimalChars_injective hport
        exact ⟨List.append_cancel_right h, rfl⟩
  · rintro ⟨hhost, rfl⟩
    rw [hhost]

theorem takeWhile_ne_append_cons (m : Char) (xs ys : List Char) :
    (xs ++ m :: ys).takeWhile (· ≠ m) = xs.takeWhile (· ≠ m) := by
  induction xs with
  | nil => simp
  | cons x xs ih =>
    by_cases hx : x = m
    · simp [hx]
    · simpa [hx] using ih

theorem takeWhile_ne_append {m : Char} {xs : List Char} (h : m ∈ xs) (ys : List Char) :
    (xs ++ ys).takeWhile (· ≠ m) = xs.takeWhile (· ≠ m) := by
  obtain ⟨front, tail, rfl⟩ := List.append_of_mem h
  rw [List.append_assoc, List.cons_append, takeWhile_ne_append_cons, takeWhile_ne_append_cons]

/-- A port behind the authority leaves the host as it is. -/
theorem hostChars_of_append {a b : Authority} {digits : List Char}
    (htext : a.text.toList = b.text.toList ++ ':' :: digits) (hat : '@' ∉ digits) :
    a.hostChars = b.hostChars := by
  have hlast : afterLast '@' a.text.toList = afterLast '@' b.text.toList ++ ':' :: digits := by
    rw [htext, afterLast_append (by simpa using hat)]
  have hsuffix := afterLast_suffix '@' b.text.toList
  unfold hostChars
  dsimp only
  rw [hlast]
  cases hhost : afterLast '@' b.text.toList with
  | nil => simp
  | cons c tail =>
    rw [hhost] at hsuffix
    by_cases hc : c = '['
    · subst hc
      have hclosed := b.bracket_closed hsuffix
      have htake := takeWhile_ne_append (List.mem_cons_of_mem '[' hclosed) (':' :: digits)
      rw [List.head?_append_of_ne_nil _ (by simp), List.head?_cons, if_pos rfl, if_pos rfl, htake]
    · have hhead : ¬ some c = some '[' := fun he => hc (Option.some.inj he)
      rw [List.head?_append_of_ne_nil _ (by simp), List.head?_cons, if_neg hhead, if_neg hhead,
        takeWhile_ne_append_cons]

/-- What a spelling of a port behind an authority adds to it is the port. -/
theorem host_port_of_append {a b : Authority} {digits : String} {n : Nat}
    (htext : a.text = b.text ++ ":" ++ digits) (hn : unsigned? 65535 digits = some n) :
    a.host = b.host ∧ a.port = some n ∧ b.port = none := by
  have hat : '@' ∉ digits.toList := not_mem_of_unsigned? hn (by decide) (by decide)
  have hcolon : ':' ∉ digits.toList := not_mem_of_unsigned? hn (by decide) (by decide)
  have hbracket : ']' ∉ digits.toList := not_mem_of_unsigned? hn (by decide) (by decide)
  have hchars : a.text.toList = b.text.toList ++ ':' :: digits.toList := by simp [htext]
  refine ⟨by rw [host, host, hostChars_of_append hchars hat], ?_, ?_⟩
  · rw [port, hchars, afterLast_append_cons hcolon, String.ofList_toList]
    simp [hn]
  · unfold port
    split_ifs with hmem
    · rw [List.contains_iff_mem] at hmem
      have hlater : ':' :: (afterLast ':' b.text.toList ++ ':' :: digits.toList) <:+
          a.text.toList := by
        obtain ⟨front, hfront⟩ := cons_afterLast_suffix hmem
        refine ⟨front, ?_⟩
        rw [hchars, ← List.cons_append, ← List.append_assoc, hfront]
      have hmark : HasMark (afterLast ':' b.text.toList) := by
        simpa [HasMark, hat, hbracket] using a.hasMark_of_two_colons hlater (by simp)
      -- The last colon of `b` is no place for a port, since a mark stands behind it.
      rw [Option.eq_none_iff_forall_ne_some]
      intro m hm
      rcases hmark with hmark | hmark
      · exact not_mem_of_unsigned? hm (m := '@') (by decide) (by decide) (by simpa using hmark)
      · exact not_mem_of_unsigned? hm (m := ']') (by decide) (by decide) (by simpa using hmark)
    · rfl

end Authority

namespace Uri

/-- The port that stands in a host value: the one in effect, unless it is the default. -/
def writtenPort? (u : Uri) : Option Nat :=
  if u.effectivePort? = u.scheme?.bind Scheme.defaultPort then none else u.effectivePort?

theorem defaultPort_of_effectivePort? {u : Uri} (h : u.effectivePort? = none) :
    u.scheme?.bind Scheme.defaultPort = none := (Option.or_eq_none_iff.mp h).2

/-- Where the default is the same, the port that is written says as much as the one in effect. -/
theorem writtenPort?_eq_iff {u v : Uri} (h : u.scheme? = v.scheme?) :
    u.writtenPort? = v.writtenPort? ↔ u.effectivePort? = v.effectivePort? := by
  have hu := @defaultPort_of_effectivePort? u
  have hv := @defaultPort_of_effectivePort? v
  unfold writtenPort?
  rw [h] at hu ⊢
  generalize v.scheme?.bind Scheme.defaultPort = standard at *
  split_ifs with hstandard hstandard' hstandard'
  · simp [hstandard, hstandard']
  · rw [hstandard]
    constructor
    · intro hnone
      exact absurd (hnone.symm.trans (hv hnone.symm).symm) hstandard'
    · intro he
      exact absurd he.symm hstandard'
  · rw [hstandard']
    constructor
    · intro hnone
      exact absurd (hnone.trans (hu hnone).symm) hstandard
    · intro he
      exact absurd he hstandard
  · rfl

end Uri

namespace Signer

theorem hostValue?_eq {u : Uri} {a : Authority} (ha : u.authority? = some a) (hne : a.host ≠ "") :
    hostValue? u = some (String.ofList (a.hostChars ++ Authority.portChars u.writtenPort?)) := by
  have hhost : u.host? = some a.host := by rw [Uri.host?, ha, Option.map_some]
  unfold hostValue? Uri.writtenPort? Uri.effectivePort?
  rw [hhost, Option.bind_eq_bind, Option.bind_some, if_neg hne]
  generalize u.scheme?.bind Scheme.defaultPort = standard
  cases u.port? with
  | none =>
    rw [Option.none_or, if_pos rfl, Authority.portChars, Option.elim_none, List.append_nil]
    rfl
  | some n =>
    dsimp only
    rw [Option.some_or]
    by_cases hn : standard = some n
    · rw [if_pos hn, if_pos hn.symm, Authority.portChars, Option.elim_none, List.append_nil]
      rfl
    · rw [if_neg hn, if_neg (Ne.symm hn), Authority.portChars, Option.elim_some,
        String.ofList_append, ← List.singleton_append, String.ofList_append, ← String.append_assoc]
      rfl

/-- Of two targets with one scheme the host values are the same exactly when the hosts and the ports
in effect are. So the default port says as much as none, in any spelling behind the rest of the
authority, and no two targets are signed for under one name. -/
theorem hostValue_identifies_target {u v : Uri} {h k : String} (hscheme : u.scheme? = v.scheme?)
    (hu : u.host? = some h) (hv : v.host? = some k) (hh : h ≠ "") (hk : k ≠ "") :
    ∃ x y, hostValue? u = some x ∧ hostValue? v = some y ∧
      (x = y ↔ h = k ∧ u.effectivePort? = v.effectivePort?) ∧
      ∀ (a b : Authority) (digits : String) (n : Nat), u.authority? = some a →
        v.authority? = some b → a.text = b.text ++ ":" ++ digits →
        unsigned? 65535 digits = some n → u.scheme?.bind Scheme.defaultPort = some n → x = y := by
  obtain ⟨a, ha, rfl⟩ := Option.map_eq_some_iff.mp hu
  obtain ⟨b, hb, rfl⟩ := Option.map_eq_some_iff.mp hv
  have hiff : String.ofList (a.hostChars ++ Authority.portChars u.writtenPort?) =
      String.ofList (b.hostChars ++ Authority.portChars v.writtenPort?) ↔
      a.host = b.host ∧ u.effectivePort? = v.effectivePort? := by
    rw [String.ofList_inj, Authority.hostChars_append_portChars_inj,
      Uri.writtenPort?_eq_iff hscheme, Authority.host, Authority.host, String.ofList_inj]
  refine ⟨_, _, hostValue?_eq ha hh, hostValue?_eq hb hk, hiff, ?_⟩
  intro a' b' digits n ha' hb' htext hn hstandard
  obtain rfl : a' = a := Option.some.inj (ha'.symm.trans ha)
  obtain rfl : b' = b := Option.some.inj (hb'.symm.trans hb)
  obtain ⟨hhost, hport, hnone⟩ := Authority.host_port_of_append htext hn
  refine hiff.mpr ⟨hhost, ?_⟩
  rw [Uri.effectivePort?, Uri.effectivePort?, Uri.port?, Uri.port?, ha, hb, Option.bind_some,
    Option.bind_some, hport, hnone, Option.some_or, Option.none_or, ← hscheme, hstandard]

/-- An address with user information and the default port is the address alone, and not the one
with another port. -/
theorem hostValue_identifies_target_bracketed : ∃ x y z,
    hostValue? (.absoluteForm .http ⟨"u:1@[::1]:080", by decide⟩ "/" none) = some x ∧
    hostValue? (.absoluteForm .http ⟨"[::1]", by decide⟩ "/p" (some "q")) = some y ∧
    hostValue? (.absoluteForm .http ⟨"[::1]:8080", by decide⟩ "/" none) = some z ∧
    x = y ∧ y ≠ z := by
  obtain ⟨x, y, hx, hy, hxy, -⟩ := hostValue_identifies_target
    (u := .absoluteForm .http ⟨"u:1@[::1]:080", by decide⟩ "/" none)
    (v := .absoluteForm .http ⟨"[::1]", by decide⟩ "/p" (some "q"))
    (h := "[::1]") (k := "[::1]") rfl (by decide) (by decide) (by decide) (by decide)
  obtain ⟨y', z, hy', hz, hyz, -⟩ := hostValue_identifies_target
    (u := .absoluteForm .http ⟨"[::1]", by decide⟩ "/p" (some "q"))
    (v := .absoluteForm .http ⟨"[::1]:8080", by decide⟩ "/" none)
    (h := "[::1]") (k := "[::1]") rfl (by decide) (by decide) (by decide) (by decide)
  obtain rfl : y = y' := Option.some.inj (hy.symm.trans hy')
  exact ⟨x, y, z, hx, hy, hz, hxy.mpr (by decide), hyz.not.mpr (by decide)⟩

end Signer
end GatewayAdmin
