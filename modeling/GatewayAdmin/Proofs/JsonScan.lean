import Mathlib.Tactic.IntervalCases
import GatewayAdmin.Proofs.JsonNumberScan

/-! A scan finds the tokens of the grammar. The octets read so far are the tokens found so far and
the beginning of the next one, as long as no faulty token was found; and the octets of a token,
read between tokens, lead to it. -/
namespace GatewayAdmin.Json

/-- A token that records why the scan could not go on. -/
inductive Token.Faulty : Token → Prop
  | broken (f : Fault) : Faulty (.broken f)
  | string (pieces : List StringPiece) (f : Fault) : Faulty (.string ⟨pieces, some f⟩)

/-- The octets of a token up to a place inside it. -/
def Place.Begun : Place → List UInt8 → Prop
  | between, text => text = []
  | word rest token, text => rest ≠ [] ∧ token.Spelled (text ++ rest)
  | number p, text => p.Read text
  | string pieces, text => ∃ inside, Pieces pieces.reverse inside ∧ text = 0x22 :: inside
  | escape pieces, text => ∃ inside, Pieces pieces.reverse inside ∧
      text = 0x22 :: (inside ++ [0x5C])
  | hex pieces digits, text => digits.length < 4 ∧ ∃ inside, Pieces pieces.reverse inside ∧
      text = 0x22 :: (inside ++ 0x5C :: 0x75 :: digits.reverse)
  | stopped _, _ => False

namespace Scan

/-- The octets that a scan has read. -/
def Reads (s : Scan) (text : List UInt8) : Prop :=
  ((∃ t ∈ s.tokens, t.Faulty) ∧ ∃ f, s.place = .stopped f) ∨
    ∃ before word, text = before ++ word ∧ Lexed s.tokens.reverse before ∧ s.place.Begun word

section
variable {s : Scan} {before word : List UInt8}

theorem reads_start : start.Reads [] := .inr ⟨[], [], rfl, .nil, rfl⟩

theorem reads_enter {place : Place} (h : Lexed s.tokens.reverse before) (hp : place.Begun word) :
    (s.enter place).Reads (before ++ word) := .inr ⟨before, word, rfl, h, hp⟩

theorem reads_push {t : Token} (h : Lexed s.tokens.reverse before) (ht : t.Spelled word) :
    (s.push t).Reads (before ++ word) := by
  refine .inr ⟨before ++ word, [], by simp, ?_, rfl⟩
  simpa [push] using h.snoc ht

theorem reads_stop (s : Scan) (f : Fault) (text : List UInt8) : (s.stop f).Reads text :=
  .inl ⟨⟨.broken f, by simp [stop], .broken f⟩, f, rfl⟩

theorem reads_stopString (s : Scan) (pieces : List StringPiece) (f : Fault) (text : List UInt8) :
    (s.stopString pieces f).Reads text :=
  .inl ⟨⟨_, by simp [stopString], .string pieces.reverse f⟩, f, rfl⟩

theorem reads_ite {c : Prop} [Decidable c] {s' : Scan} {text : List UInt8} (h : c → s.Reads text)
    (h' : ¬c → s'.Reads text) : (if c then s else s').Reads text := by
  split
  · next hc => exact h hc
  · next hc => exact h' hc

theorem reads_begin (h : Lexed s.tokens.reverse before) (b : UInt8) :
    (s.begin b).Reads (before ++ [b]) := by
  unfold begin
  refine reads_ite (fun hb => .inr ⟨before ++ [b], [], by simp, h.snoc_space hb, rfl⟩) fun _ => ?_
  refine reads_ite (fun hb => hb ▸ reads_push h .openObject) fun _ => ?_
  refine reads_ite (fun hb => hb ▸ reads_push h .closeObject) fun _ => ?_
  refine reads_ite (fun hb => hb ▸ reads_push h .openArray) fun _ => ?_
  refine reads_ite (fun hb => hb ▸ reads_push h .closeArray) fun _ => ?_
  refine reads_ite (fun hb => hb ▸ reads_push h .colon) fun _ => ?_
  refine reads_ite (fun hb => hb ▸ reads_push h .comma) fun _ => ?_
  refine reads_ite (fun hb => reads_enter h ⟨[], .nil, by rw [hb]⟩) fun _ => ?_
  refine reads_ite (fun hb => reads_enter h ⟨by simp, hb ▸ .null⟩) fun _ => ?_
  refine reads_ite (fun hb => reads_enter h ⟨by simp, hb ▸ .boolTrue⟩) fun _ => ?_
  refine reads_ite (fun hb => reads_enter h ⟨by simp, hb ▸ .boolFalse⟩) fun _ => ?_
  refine reads_ite (fun hb => reads_enter h (congrArg ([·]) hb)) fun _ => ?_
  split
  · next hb => exact reads_enter h (NumberPlace.read_zero false hb)
  · next d hne hb => exact reads_enter h (NumberPlace.read_whole false hb hne)
  · exact reads_stop s .malformed _

theorem reads_stepHex {pieces : List StringPiece} {inside digits : List UInt8}
    (h : Lexed s.tokens.reverse before) (hlength : digits.length ≤ 4)
    (hpieces : Pieces pieces.reverse inside) :
    (s.stepHex pieces digits).Reads
      (before ++ 0x22 :: (inside ++ 0x5C :: 0x75 :: digits.reverse)) := by
  unfold stepHex
  split_ifs with hshort
  · exact reads_enter h ⟨hshort, inside, hpieces, rfl⟩
  · cases hu : unit? digits.reverse with
    | none => exact reads_stopString s pieces .malformed _
    | some u =>
      have hp : (StringPiece.unit u).Spelled (0x5C :: 0x75 :: digits.reverse) :=
        .unit (by simp; omega) hu
      exact reads_enter h ⟨_, by simpa using hpieces.snoc hp, rfl⟩

theorem Reads.step {text : List UInt8} (h : s.Reads text) (b : UInt8) :
    (s.step b).Reads (text ++ [b]) := by
  obtain ⟨tokens, place⟩ := s
  rcases h with ⟨hfaulty, f, hf⟩ | ⟨before, word, rfl, hl, hp⟩
  · obtain rfl := hf
    exact .inl ⟨hfaulty, f, rfl⟩
  rw [List.append_assoc]
  cases place with
  | stopped f => exact hp.elim
  | between =>
    obtain rfl := hp
    exact reads_begin hl b
  | word rest token =>
    obtain ⟨hne, ht⟩ := hp
    cases rest with
    | nil => exact absurd rfl hne
    | cons c rest =>
      simp only [Scan.step]
      split_ifs with hc hrest
      · exact reads_stop _ _ _
      · obtain rfl := List.isEmpty_iff.mp hrest
        exact reads_push hl (not_not.mp hc ▸ ht)
      · refine reads_enter hl ⟨by simpa using hrest, ?_⟩
        rw [not_not.mp hc]
        simpa using ht
  | number p =>
    have hstep := NumberPlace.Read.step hp b
    simp only [Scan.step]
    cases hs : p.step b with
    | next q =>
      rw [hs] at hstep
      exact reads_enter hl hstep
    | «over» n =>
      -- The octet that ends a number is the first one behind it.
      rw [hs] at hstep
      rw [← List.append_assoc]
      refine reads_begin ?_ b
      simpa [push] using hl.snoc (.number hstep)
    | bad => exact reads_stop _ _ _
  | string pieces =>
    obtain ⟨inside, hpieces, rfl⟩ := hp
    simp only [Scan.step]
    split_ifs with hquote hescape hcontrol
    · subst hquote
      exact reads_push hl (.string hpieces)
    · subst hescape
      exact reads_enter hl ⟨inside, hpieces, by simp⟩
    · exact reads_stopString _ _ _ _
    · have hplain := StringPiece.Spelled.plain hcontrol hquote hescape
      exact reads_enter hl ⟨inside ++ [b], by simpa using hpieces.snoc hplain, by simp⟩
  | escape pieces =>
    obtain ⟨inside, hpieces, rfl⟩ := hp
    simp only [Scan.step]
    split_ifs with hunit
    · subst hunit
      exact reads_enter hl ⟨by simp, inside, hpieces, by simp⟩
    · cases he : escaped? b with
      | none => exact reads_stopString _ _ _ _
      | some e =>
        have hescape := StringPiece.Spelled.escape he
        exact reads_enter hl ⟨inside ++ [0x5C, b], by simpa using hpieces.snoc hescape, by simp⟩
  | hex pieces digits =>
    obtain ⟨hlength, inside, hpieces, rfl⟩ := hp
    have hlength : (b :: digits).length ≤ 4 := hlength
    have hhex := reads_stepHex hl hlength hpieces
    simpa [Scan.step] using hhex

theorem reads_run (text : List UInt8) : (text.foldl Scan.step start).Reads text := by
  induction text using List.reverseRecOn with
  | nil => exact reads_start
  | append_singleton text b ih =>
    rw [List.foldl_append]
    exact ih.step b

/-- At the end of the text every token that was begun is complete or faulty. -/
theorem Reads.finish {text : List UInt8} (h : s.Reads text)
    (hsound : ∀ t ∈ s.finish.tokens, ¬t.Faulty) : Lexed s.finish.tokens.reverse text := by
  obtain ⟨tokens, place⟩ := s
  rcases h with ⟨⟨t, ht, hfaulty⟩, f, hf⟩ | ⟨before, word, rfl, hl, hp⟩
  · obtain rfl := hf
    exact absurd hfaulty (hsound t ht)
  cases place with
  | stopped f => exact hp.elim
  | between =>
    obtain rfl := hp
    simpa [Scan.finish, enter] using hl
  | word rest token => exact absurd (.broken .truncated) (hsound _ (by simp [Scan.finish, stop]))
  | number p =>
    cases hn : p.finish? with
    | none =>
      exact absurd (.broken .truncated) (hsound _ (by simp [Scan.finish, hn]))
    | some n =>
      have hnumber : Token.Spelled (.number n) word := .number (NumberPlace.Read.spelled hp hn)
      simpa [Scan.finish, hn, push, enter] using hl.snoc hnumber
  | string pieces | escape pieces | hex pieces _ =>
    exact absurd (.string pieces.reverse .truncated)
      (hsound _ (by simp [Scan.finish, stopString]))

end
end Scan

/-- A text without a faulty token is written by the grammar. -/
theorem lexed_tokens {text : List UInt8} (h : ∀ t ∈ (tokens text).list, ¬t.Faulty) :
    Lexed (tokens text).list text := by
  refine (Scan.reads_run text).finish ?_
  simpa [tokens] using h

namespace Scan

theorem step_next {p q : NumberPlace} {b : UInt8} (h : p.step b = .next q) (ts : List Token) :
    step ⟨ts, .number p⟩ b = ⟨ts, .number q⟩ := by
  simp [step, h, enter]

/-- Digits go on at a place that takes digits. -/
theorem foldl_digits {place : List Nat → NumberPlace}
    (hplace : ∀ {ds d b}, digit? b = some d → (place ds).step b = .next (place (d :: ds)))
    {digits : List Nat} {word : List UInt8} (h : Digits digits word) (ts : List Token)
    (ds : List Nat) :
    word.foldl step ⟨ts, .number (place ds)⟩ = ⟨ts, .number (place (digits.reverse ++ ds))⟩ := by
  induction word generalizing digits ds with
  | nil =>
    obtain rfl : digits = [] := by simpa [Digits] using h
    rfl
  | cons b word ih =>
    cases digits with
    | nil => simp [Digits] at h
    | cons d digits =>
      obtain ⟨hb, hword⟩ := digits_cons.mp h
      rw [List.foldl_cons, step_next (hplace hb), ih hword]
      simp

/-- Digits after a place that wants one. -/
theorem foldl_someDigits {p : NumberPlace} {place : List Nat → NumberPlace}
    (hfirst : ∀ {d b}, digit? b = some d → p.step b = .next (place [d]))
    (hplace : ∀ {ds d b}, digit? b = some d → (place ds).step b = .next (place (d :: ds)))
    {digits : List Nat} {word : List UInt8} (h : Digits digits word) (hne : digits ≠ [])
    (ts : List Token) :
    word.foldl step ⟨ts, .number p⟩ = ⟨ts, .number (place digits.reverse)⟩ := by
  cases digits with
  | nil => exact absurd rfl hne
  | cons d digits =>
    cases word with
    | nil => simp [Digits] at h
    | cons b word =>
      obtain ⟨hb, hword⟩ := digits_cons.mp h
      rw [List.foldl_cons, step_next (hfirst hb), foldl_digits hplace hword]
      simp

theorem begin_digit {b : UInt8} {d : Nat} (hb : digit? b = some d) (hd : d ≠ 0) (s : Scan) :
    s.begin b = s.enter (.number (.whole false [d])) := by
  obtain ⟨hn, hd9⟩ := digit?_eq_some_iff.mp hb
  obtain rfl : b = UInt8.ofNat (d + 0x30) := by rw [← hn, UInt8.ofNat_toNat]
  interval_cases d
  · exact absurd rfl hd
  all_goals rfl

theorem foldl_firstDigit (negative : Bool) {b : UInt8} {d : Nat} (hb : digit? b = some d)
    (hd : d ≠ 0) (ts : List Token) :
    (minusSign negative ++ [b]).foldl step ⟨ts, .between⟩ =
      ⟨ts, .number (.whole negative [d])⟩ := by
  cases negative with
  | false => exact begin_digit hb hd ⟨ts, .between⟩
  | true =>
    have hfirst : NumberPlace.minus.step b = .next (.whole true [d]) := by
      cases d with
      | zero => exact absurd rfl hd
      | succ d => simp [NumberPlace.step, hb]
    exact step_next hfirst ts

end Scan

/-- A number leads to a place where it can end. -/
theorem NumberText.Spelled.foldl {n : NumberText} {text : List UInt8} (h : n.Spelled text)
    (ts : List Token) :
    ∃ p, p.finish? = some n ∧ text.foldl Scan.step ⟨ts, .between⟩ = ⟨ts, .number p⟩ := by
  induction h with
  | zero negative =>
    refine ⟨.zero negative, rfl, ?_⟩
    cases negative with
    | false => rfl
    | true => rfl
  | @whole negative d digits text hd hword =>
    refine ⟨.whole negative (digits.reverse ++ [d]), by simp [NumberPlace.finish?], ?_⟩
    cases text with
    | nil => simp [Digits] at hword
    | cons b word =>
      obtain ⟨hb, hdigits⟩ := digits_cons.mp hword
      rw [List.append_cons, List.foldl_append, Scan.foldl_firstDigit negative hb hd]
      exact Scan.foldl_digits (fun hb => by simp [NumberPlace.step, hb]) hdigits ts [d]
  | @fraction n digits text word _ hf he hne hword ih =>
    obtain ⟨p, hp, hbefore⟩ := ih
    refine ⟨.fraction n digits.reverse, by simp [NumberPlace.finish?], ?_⟩
    rw [List.foldl_append, hbefore, List.foldl_cons,
      Scan.step_next (NumberPlace.step_point hp hf he)]
    exact Scan.foldl_someDigits (fun hb => by simp [NumberPlace.step, hb])
      (fun hb => by simp [NumberPlace.step, hb]) hword hne ts
  | @exponent n mark negative digits text sign word _ he hm hs hne hword ih =>
    obtain ⟨p, hp, hbefore⟩ := ih
    refine ⟨.exponent n negative digits.reverse, by simp [NumberPlace.finish?], ?_⟩
    rw [List.foldl_append, hbefore, List.foldl_cons,
      Scan.step_next (NumberPlace.step_mark hp he hm), List.foldl_append]
    -- With or without a sign the same digits follow, from different places.
    have hdigits {q : NumberPlace}
        (hq : ∀ {d b}, digit? b = some d → q.step b = .next (.exponent n negative [d])) :
        word.foldl Scan.step ⟨ts, .number q⟩ =
          ⟨ts, .number (.exponent n negative digits.reverse)⟩ :=
      Scan.foldl_someDigits hq (fun hb => by simp [NumberPlace.step, hb]) hword hne ts
    cases hs with
    | none => exact hdigits fun hb => by simp [NumberPlace.step, hb]
    | plus => exact hdigits (q := .sign n false) fun hb => by simp [NumberPlace.step, hb]
    | minus => exact hdigits (q := .sign n true) fun hb => by simp [NumberPlace.step, hb]

/-- The pieces of a string are collected. -/
theorem Pieces.foldl {pieces : List StringPiece} {text : List UInt8} (h : Pieces pieces text)
    (ts : List Token) (before : List StringPiece) :
    text.foldl Scan.step ⟨ts, .string before⟩ = ⟨ts, .string (pieces.reverse ++ before)⟩ := by
  induction h generalizing before with
  | nil => rfl
  | @cons p _ word _ hp _ ih =>
    have hpiece : word.foldl Scan.step ⟨ts, .string before⟩ = ⟨ts, .string (p :: before)⟩ := by
      cases hp with
      | plain hcontrol hquote hescape =>
        simp [Scan.step, hcontrol, hquote, hescape, Scan.enter]
      | @escape e b he =>
        have hnot : e ≠ 0x75 := by
          rintro rfl
          simp [Scan.escaped?] at he
        have hmark : Scan.step ⟨ts, .string before⟩ 0x5C = ⟨ts, .escape before⟩ := rfl
        rw [List.foldl_cons, hmark]
        simp [Scan.step, hnot, he, Scan.enter]
      | @unit digits u hlength hu =>
        have hmark : Scan.step (Scan.step ⟨ts, .string before⟩ 0x5C) 0x75 = ⟨ts, .hex before []⟩ :=
          rfl
        rw [List.foldl_cons, List.foldl_cons, hmark]
        match digits, hlength with
        | [_, _, _, _], _ => simp [Scan.step, Scan.stepHex, hu, Scan.enter]
    rw [List.foldl_append, hpiece, ih]
    simp

theorem Token.Spelled.foldl {t : Token} {word : List UInt8} (h : t.Spelled word)
    (ht : t.isNumber = false) (ts : List Token) :
    word.foldl Scan.step ⟨ts, .between⟩ = ⟨t :: ts, .between⟩ := by
  cases h with
  | number hn => simp [Token.isNumber] at ht
  | @string pieces text hp =>
    have hopen : Scan.step ⟨ts, .between⟩ 0x22 = ⟨ts, .string []⟩ := rfl
    rw [List.foldl_cons, hopen, List.foldl_append, hp.foldl]
    simp [Scan.step, Scan.push]
  | _ => rfl

theorem EndsNumber.of_isSpace {b : UInt8} (h : Scan.isSpace b = true) : EndsNumber b := by
  simp only [Scan.isSpace, Bool.or_eq_true, decide_eq_true_eq, or_assoc] at h
  rcases h with rfl | rfl | rfl | rfl <;> decide

/-- A number ends before white space and before any token that is no number. -/
theorem Lexed.endsNumber {ts : List Token} {text : List UInt8} (h : Lexed ts text)
    (hnext : NoNumberNext ts) : ∀ b ∈ text.head?, EndsNumber b := by
  intro b hb
  cases h with
  | nil => simp at hb
  | space hspace _ =>
    obtain rfl := Option.some.inj hb
    exact .of_isSpace hspace
  | @token t ts word rest ht _ =>
    have hnot : t.isNumber = false := hnext t rfl
    cases ht with
    | number _ => simp [Token.isNumber] at hnot
    | _ =>
      obtain rfl := Option.some.inj hb
      decide

/-- Tokens that the grammar finds in a text are found in it. -/
theorem Lexed.finish_foldl {ts : List Token} {text : List UInt8} (h : Lexed ts text)
    (hs : Separated ts) (found : List Token) :
    (text.foldl Scan.step ⟨found, .between⟩).finish =
      ⟨ts.reverse ++ found, .stopped .truncated⟩ := by
  induction h generalizing found with
  | nil => rfl
  | @space b _ _ hspace _ ih =>
    have hstep : Scan.step ⟨found, .between⟩ b = ⟨found, .between⟩ := by
      simp [Scan.step, Scan.begin, hspace, Scan.enter]
    rw [List.foldl_cons, hstep, ih hs]
  | @token t ts word text ht hrest ih =>
    obtain ⟨hnext, hs⟩ := separated_cons.mp hs
    have hfound := ih hs (t :: found)
    rw [List.foldl_append]
    -- Only a number is still open behind its last octet; what comes next ends it.
    cases hnumber : t.isNumber with
    | false => simpa [ht.foldl hnumber] using hfound
    | true =>
      cases ht with
      | @number n word hn =>
        obtain ⟨p, hp, hrun⟩ := hn.foldl found
        rw [hrun]
        cases text with
        | nil => simpa [Scan.finish, hp, Scan.push] using hfound
        | cons b text =>
          have hends : EndsNumber b := hrest.endsNumber (hnext rfl) b rfl
          simpa [Scan.step, NumberPlace.step_over hp hends, Scan.push] using hfound
      | _ => simp [Token.isNumber] at hnumber

theorem Lexed.tokens_eq {ts : List Token} {text : List UInt8} (h : Lexed ts text)
    (hs : Separated ts) : tokens text = ⟨ts, .truncated⟩ := by
  have hrun := h.finish_foldl hs []
  simp [tokens, Scan.start, hrun]

end GatewayAdmin.Json
