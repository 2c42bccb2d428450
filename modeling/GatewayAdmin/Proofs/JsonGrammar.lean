import Mathlib.Data.List.Chain
import GatewayAdmin.Json.Draft

/-! The grammar of JSON texts, said without a reader: how each token is written, how tokens stand in
a text with white space between them, and which tokens make up a value. -/
namespace GatewayAdmin.Json

/-- What stands between the quotes of a string for one piece of it. -/
inductive StringPiece.Spelled : StringPiece → List UInt8 → Prop
  | plain {b : UInt8} (hcontrol : ¬b < 0x20) (hquote : b ≠ 0x22) (hescape : b ≠ 0x5C) :
      Spelled (.octet b) [b]
  | escape {e b : UInt8} (h : Scan.escaped? e = some b) : Spelled (.octet b) [0x5C, e]
  | unit {digits : List UInt8} {u : Nat} (hlength : digits.length = 4)
      (h : Scan.unit? digits = some u) : Spelled (.unit u) (0x5C :: 0x75 :: digits)

/-- What stands between the quotes of a string. -/
inductive Pieces : List StringPiece → List UInt8 → Prop
  | nil : Pieces [] []
  | cons {p : StringPiece} {ps : List StringPiece} {word text : List UInt8}
      (hp : p.Spelled word) (h : Pieces ps text) : Pieces (p :: ps) (word ++ text)

theorem Pieces.snoc {ps : List StringPiece} {p : StringPiece} {text word : List UInt8}
    (h : Pieces ps text) (hp : p.Spelled word) : Pieces (ps ++ [p]) (text ++ word) := by
  induction h with
  | nil => simpa using Pieces.cons hp .nil
  | cons hq _ ih =>
    rw [List.append_assoc]
    exact .cons hq ih

def minusSign (negative : Bool) : List UInt8 := if negative then [0x2D] else []

/-- The octets are these digits, in this order. -/
def Digits (digits : List Nat) (text : List UInt8) : Prop := text.map digit? = digits.map some

theorem digits_cons {d : Nat} {digits : List Nat} {b : UInt8} {text : List UInt8} :
    Digits (d :: digits) (b :: text) ↔ digit? b = some d ∧ Digits digits text := by
  simp [Digits]

theorem Digits.snoc {digits : List Nat} {d : Nat} {text : List UInt8} {b : UInt8}
    (h : Digits digits text) (hd : digit? b = some d) : Digits (digits ++ [d]) (text ++ [b]) := by
  rw [Digits] at h ⊢
  simp [h, hd]

/-- The sign of an exponent; without one it is positive. -/
inductive ExponentSign : Bool → List UInt8 → Prop
  | none : ExponentSign false []
  | plus : ExponentSign false [0x2B]
  | minus : ExponentSign true [0x2D]

def IsExponentMark (b : UInt8) : Prop := b = 0x65 ∨ b = 0x45

/-- A number is a whole part without needless zeros, then a fraction or none, then an exponent or
none. -/
inductive NumberText.Spelled : NumberText → List UInt8 → Prop
  | zero (negative : Bool) : Spelled ⟨negative, [0], none, none⟩ (minusSign negative ++ [0x30])
  | whole {negative : Bool} {d : Nat} {digits : List Nat} {text : List UInt8} (hd : d ≠ 0)
      (h : Digits (d :: digits) text) :
      Spelled ⟨negative, d :: digits, none, none⟩ (minusSign negative ++ text)
  | fraction {n : NumberText} {digits : List Nat} {text word : List UInt8} (hn : Spelled n text)
      (hf : n.fraction = none) (he : n.exponent = none) (hne : digits ≠ [])
      (h : Digits digits word) :
      Spelled { n with fraction := some digits } (text ++ 0x2E :: word)
  | exponent {n : NumberText} {mark : UInt8} {negative : Bool} {digits : List Nat}
      {text sign word : List UInt8} (hn : Spelled n text) (he : n.exponent = none)
      (hm : IsExponentMark mark) (hs : ExponentSign negative sign) (hne : digits ≠ [])
      (h : Digits digits word) :
      Spelled { n with exponent := some (negative, digits) } (text ++ mark :: (sign ++ word))

/-- How a token is written. A broken token is written in no way, nor is a string without its end. -/
inductive Token.Spelled : Token → List UInt8 → Prop
  | openObject : Spelled .openObject [0x7B]
  | closeObject : Spelled .closeObject [0x7D]
  | openArray : Spelled .openArray [0x5B]
  | closeArray : Spelled .closeArray [0x5D]
  | colon : Spelled .colon [0x3A]
  | comma : Spelled .comma [0x2C]
  | null : Spelled .null [0x6E, 0x75, 0x6C, 0x6C]
  | boolTrue : Spelled (.bool true) [0x74, 0x72, 0x75, 0x65]
  | boolFalse : Spelled (.bool false) [0x66, 0x61, 0x6C, 0x73, 0x65]
  | number {n : NumberText} {text : List UInt8} (h : n.Spelled text) : Spelled (.number n) text
  | string {pieces : List StringPiece} {text : List UInt8} (h : Pieces pieces text) :
      Spelled (.string ⟨pieces, none⟩) (0x22 :: (text ++ [0x22]))

/-- The text is these tokens, with white space before, between and after them. -/
inductive Lexed : List Token → List UInt8 → Prop
  | nil : Lexed [] []
  | space {b : UInt8} {ts : List Token} {text : List UInt8} (hb : Scan.isSpace b = true)
      (h : Lexed ts text) : Lexed ts (b :: text)
  | token {t : Token} {ts : List Token} {word text : List UInt8} (ht : t.Spelled word)
      (h : Lexed ts text) : Lexed (t :: ts) (word ++ text)

namespace Lexed

variable {ts us : List Token} {text rest : List UInt8}

theorem append (h : Lexed ts text) (h' : Lexed us rest) : Lexed (ts ++ us) (text ++ rest) := by
  induction h with
  | nil => exact h'
  | space hb _ ih => exact .space hb ih
  | token ht _ ih =>
    rw [List.append_assoc]
    exact .token ht ih

theorem snoc {t : Token} {word : List UInt8} (h : Lexed ts text) (ht : t.Spelled word) :
    Lexed (ts ++ [t]) (text ++ word) := by
  simpa using h.append (.token ht .nil)

theorem snoc_space {b : UInt8} (h : Lexed ts text) (hb : Scan.isSpace b = true) :
    Lexed ts (text ++ [b]) := by
  simpa using h.append (.space hb .nil)

end Lexed

mutual

/-- The tokens of a value. -/
def Draft.tokens : Draft → List Token
  | .null => [.null]
  | .bool b => [.bool b]
  | .number n => [.number n]
  | .string s => [.string s]
  | .array items _ => .openArray :: (itemTokens items ++ [.closeArray])
  | .object members _ => .openObject :: (memberTokens members ++ [.closeObject])
  | .broken f => [.broken f]

def itemTokens : List Draft → List Token
  | [] => []
  | d :: rest => d.tokens ++ laterItemTokens rest

def laterItemTokens : List Draft → List Token
  | [] => []
  | d :: rest => .comma :: (d.tokens ++ laterItemTokens rest)

def memberTokens : List (StringText × Draft) → List Token
  | [] => []
  | (k, d) :: rest => .string k :: .colon :: (d.tokens ++ laterMemberTokens rest)

def laterMemberTokens : List (StringText × Draft) → List Token
  | [] => []
  | (k, d) :: rest => .comma :: .string k :: .colon :: (d.tokens ++ laterMemberTokens rest)

end

/-- A draft in which no fault stands. -/
inductive Draft.Sound : Draft → Prop
  | null : Sound .null
  | bool (b : Bool) : Sound (.bool b)
  | number (n : NumberText) : Sound (.number n)
  | string {s : StringText} (h : s.fault = none) : Sound (.string s)
  | array {items : List Draft} (h : ∀ d ∈ items, Sound d) : Sound (.array items none)
  | object {members : List (StringText × Draft)} (hkeys : ∀ m ∈ members, m.1.fault = none)
      (hvalues : ∀ m ∈ members, Sound m.2) : Sound (.object members none)

/-- The text is one value of the grammar, with white space around its tokens. -/
structure Spells (d : Draft) (text : List UInt8) : Prop where
  sound : d.Sound
  lexed : Lexed d.tokens text

def Token.isNumber : Token → Bool
  | .number _ => true
  | _ => false

/-- Nothing comes next, or something other than a number. -/
def NoNumberNext (ts : List Token) : Prop := ∀ t ∈ ts.head?, t.isNumber = false

theorem noNumberNext_cons {t : Token} {ts : List Token} (ht : t.isNumber = false) :
    NoNumberNext (t :: ts) := by
  intro u hu
  obtain rfl := Option.some.inj hu
  exact ht

/-- No two numbers stand next to each other, so that each ends where it is seen to end. -/
def Separated (ts : List Token) : Prop :=
  ts.IsChain fun t u => t.isNumber = true → u.isNumber = false

theorem separated_cons {t : Token} {ts : List Token} :
    Separated (t :: ts) ↔ (t.isNumber = true → NoNumberNext ts) ∧ Separated ts := by
  rw [Separated, List.isChain_cons]
  refine and_congr_left fun _ => ⟨?_, ?_⟩
  · intro h ht u hu
    exact h u hu ht
  · intro h u hu ht
    exact h ht u hu

theorem separated_cons_of_not {t : Token} {ts : List Token} (ht : t.isNumber = false) :
    Separated (t :: ts) ↔ Separated ts := by
  simp [separated_cons, ht]

mutual

/-- The tokens of a value keep numbers apart, if what follows the value does. -/
theorem Draft.separated_tokens (d : Draft) {ts : List Token} (h : Separated ts)
    (hnext : NoNumberNext ts) : Separated (d.tokens ++ ts) := by
  cases d with
  | null | bool _ | string _ | broken _ => exact (separated_cons_of_not rfl).mpr h
  | number n => exact separated_cons.mpr ⟨fun _ => hnext, h⟩
  | array items fault =>
    simp only [Draft.tokens, List.cons_append, List.append_assoc]
    have hclose : Separated (.closeArray :: ts) := (separated_cons_of_not rfl).mpr h
    exact (separated_cons_of_not rfl).mpr
      (separated_itemTokens items hclose (noNumberNext_cons rfl))
  | object members fault =>
    simp only [Draft.tokens, List.cons_append, List.append_assoc]
    have hclose : Separated (.closeObject :: ts) := (separated_cons_of_not rfl).mpr h
    exact (separated_cons_of_not rfl).mpr
      (separated_memberTokens members hclose (noNumberNext_cons rfl))

theorem separated_itemTokens (items : List Draft) {ts : List Token} (h : Separated ts)
    (hnext : NoNumberNext ts) : Separated (itemTokens items ++ ts) := by
  cases items with
  | nil => exact h
  | cons d rest =>
    obtain ⟨hrest, hnext'⟩ := separated_laterItemTokens rest h hnext
    simpa only [itemTokens, List.append_assoc] using d.separated_tokens hrest hnext'

theorem separated_laterItemTokens (items : List Draft) {ts : List Token} (h : Separated ts)
    (hnext : NoNumberNext ts) :
    Separated (laterItemTokens items ++ ts) ∧ NoNumberNext (laterItemTokens items ++ ts) := by
  cases items with
  | nil => exact ⟨h, hnext⟩
  | cons d rest =>
    obtain ⟨hrest, hnext'⟩ := separated_laterItemTokens rest h hnext
    refine ⟨(separated_cons_of_not rfl).mpr ?_, noNumberNext_cons rfl⟩
    simpa only [List.append_eq, List.append_assoc] using d.separated_tokens hrest hnext'

theorem separated_memberTokens (members : List (StringText × Draft)) {ts : List Token}
    (h : Separated ts) (hnext : NoNumberNext ts) : Separated (memberTokens members ++ ts) := by
  cases members with
  | nil => exact h
  | cons m rest =>
    obtain ⟨k, d⟩ := m
    obtain ⟨hrest, hnext'⟩ := separated_laterMemberTokens rest h hnext
    refine (separated_cons_of_not rfl).mpr ((separated_cons_of_not rfl).mpr ?_)
    simpa only [List.append_eq, List.append_assoc] using d.separated_tokens hrest hnext'

theorem separated_laterMemberTokens (members : List (StringText × Draft)) {ts : List Token}
    (h : Separated ts) (hnext : NoNumberNext ts) :
    Separated (laterMemberTokens members ++ ts) ∧
      NoNumberNext (laterMemberTokens members ++ ts) := by
  cases members with
  | nil => exact ⟨h, hnext⟩
  | cons m rest =>
    obtain ⟨k, d⟩ := m
    obtain ⟨hrest, hnext'⟩ := separated_laterMemberTokens rest h hnext
    refine ⟨?_, noNumberNext_cons rfl⟩
    refine (separated_cons_of_not rfl).mpr
      ((separated_cons_of_not rfl).mpr ((separated_cons_of_not rfl).mpr ?_))
    simpa only [List.append_eq, List.append_assoc] using d.separated_tokens hrest hnext'

end

end GatewayAdmin.Json
