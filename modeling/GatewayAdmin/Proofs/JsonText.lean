import Mathlib.Data.List.Basic
import GatewayAdmin.Json.Value
import GatewayAdmin.Proofs.DecimalText
import GatewayAdmin.Proofs.JsonParse
import GatewayAdmin.Proofs.Utf8Text

/-! What values are written with: integers and strings are spelled as tokens, and every value whose
numbers are integers has a draft. -/
namespace GatewayAdmin.Json

open Text

/-! ### Numbers -/

def digitNumber (c : Char) : Nat := c.toNat - '0'.toNat

/-- A whole number as it is written. -/
def NumberText.ofInt (n : Int) : NumberText :=
  ⟨n < 0, (decimalChars n.natAbs).map digitNumber, none, none⟩

theorem digit?_utf8EncodeChar {c : Char} (h : c.isDigit = true) :
    (String.utf8EncodeChar c).map digit? = [some (digitNumber c)] := by
  have hall : ∀ n < 10, (String.utf8EncodeChar (Char.ofNat (48 + n))).map digit? =
      [some (digitNumber (Char.ofNat (48 + n)))] := by decide
  obtain ⟨hlow, hhigh⟩ := Char.isDigit_iff_toNat.mp h
  change 48 ≤ c.toNat at hlow
  change c.toNat ≤ 57 at hhigh
  have hc := hall (c.toNat - 48) (by omega)
  rwa [show 48 + (c.toNat - 48) = c.toNat by omega, Char.ofNat_toNat] at hc

theorem digits_utf8Chars {cs : List Char} (h : ∀ c ∈ cs, c.isDigit = true) :
    Digits (cs.map digitNumber) (utf8Chars cs) := by
  induction cs with
  | nil => rfl
  | cons c cs ih =>
    obtain ⟨hc, hcs⟩ := List.forall_mem_cons.mp h
    have hrest := ih hcs
    rw [Digits] at hrest ⊢
    rw [utf8Chars_cons, List.map_append, digit?_utf8EncodeChar hc, hrest]
    rfl

theorem digitNumber_ne_zero {c : Char} (hdigit : c.isDigit = true) (hc : c ≠ '0') :
    digitNumber c ≠ 0 := by
  obtain ⟨hlow, -⟩ := Char.isDigit_iff_toNat.mp hdigit
  change '0'.toNat ≤ c.toNat at hlow
  intro h
  unfold digitNumber at h
  have hsame : c.toNat = '0'.toNat := by omega
  exact hc (Char.toNat_inj.mp hsame)

/-- Digits are a whole number when the first is not a zero in front of others. -/
theorem NumberText.spelled_whole {c : Char} {cs : List Char}
    (hdigits : ∀ d ∈ c :: cs, d.isDigit = true) (hzero : c = '0' → cs = []) (negative : Bool) :
    Spelled ⟨negative, (c :: cs).map digitNumber, none, none⟩
      (minusSign negative ++ utf8Chars (c :: cs)) := by
  by_cases hc : c = '0'
  · obtain rfl := hzero hc
    subst hc
    exact .zero negative
  · exact .whole (digitNumber_ne_zero (hdigits c List.mem_cons_self) hc) (digits_utf8Chars hdigits)

/-- What is written in front of a number for its sign. -/
def signChars (negative : Bool) : List Char := if negative then ['-'] else []

theorem utf8Chars_signChars (negative : Bool) (cs : List Char) :
    utf8Chars (signChars negative ++ cs) = minusSign negative ++ utf8Chars cs := by
  cases negative with
  | false => rfl
  | true => rfl

theorem NumberText.spelled_ofInt (n : Int) :
    (NumberText.ofInt n).Spelled (utf8Chars (integerChars n)) := by
  have htext : integerChars n = signChars (n < 0) ++ decimalChars n.natAbs := by
    by_cases hn : n < 0
    · rw [integerChars, if_pos hn, signChars, if_pos (by simpa using hn)]
      rfl
    · rw [integerChars, if_neg hn, signChars, if_neg (by simpa using hn)]
      rfl
  have hdigits : ∀ c ∈ decimalChars n.natAbs, c.isDigit = true :=
    fun _ => isDigit_of_mem_decimalChars
  rw [htext, utf8Chars_signChars, NumberText.ofInt]
  by_cases hzero : n = 0
  · subst hzero
    exact .zero false
  · obtain ⟨c, cs, hcons, hc⟩ := decimalChars_eq_cons (n := n.natAbs) (by omega)
    rw [hcons] at hdigits ⊢
    exact spelled_whole hdigits (fun h => absurd h hc) _

/-! ### Strings -/

/-- Control characters that have no shorter escape are escaped by their numbers. -/
def isEscapedByNumber (c : Char) : Bool :=
  c.toNat < 0x20 && !(['\x08', '\x0c', '\n', '\r', '\t'].contains c)

/-- What a reader finds for a character between the quotes. -/
def charPieces (c : Char) : List StringPiece :=
  if isEscapedByNumber c then [.unit c.toNat] else (String.utf8EncodeChar c).map .octet

def StringText.ofString (s : String) : StringText := ⟨s.toList.flatMap charPieces, none⟩

theorem pieces_append {ps qs : List StringPiece} {text rest : List UInt8} (h : Pieces ps text)
    (h' : Pieces qs rest) : Pieces (ps ++ qs) (text ++ rest) := by
  induction h with
  | nil => exact h'
  | cons hp _ ih =>
    rw [List.append_assoc]
    exact .cons hp ih

/-- Octets that stand for themselves. -/
theorem pieces_plain {bs : List UInt8}
    (h : ∀ b ∈ bs, ¬b < 0x20 ∧ b ≠ 0x22 ∧ b ≠ 0x5C) : Pieces (bs.map .octet) bs := by
  induction bs with
  | nil => exact .nil
  | cons b bs ih =>
    obtain ⟨⟨hcontrol, hquote, hescape⟩, hbs⟩ := List.forall_mem_cons.mp h
    exact .cons (.plain hcontrol hquote hescape) (ih hbs)

theorem plain_of_high {b : UInt8} (h : 0x80 ≤ b.toNat) : ¬b < 0x20 ∧ b ≠ 0x22 ∧ b ≠ 0x5C := by
  refine ⟨not_lt_of_toNat_le (show 0x20 ≤ b.toNat by omega), ?_, ?_⟩ <;> rintro rfl <;>
    exact absurd h (by decide)

/-- The octets of a character other than a control character, the quote and the backslash. -/
theorem plain_utf8EncodeChar {c : Char} (hcontrol : 0x20 ≤ c.toNat) (hquote : c ≠ '"')
    (hescape : c ≠ '\\') :
    ∀ b ∈ String.utf8EncodeChar c, ¬b < 0x20 ∧ b ≠ 0x22 ∧ b ≠ 0x5C := by
  by_cases hascii : c.toNat < 0x80
  · have hv : (UInt8.ofNat c.toNat).toNat = c.toNat := by
      rw [UInt8.toNat_ofNat']
      omega
    have hne (d : Char) (b : UInt8) (hd : d.toNat = b.toNat) (hcd : c ≠ d) :
        UInt8.ofNat c.toNat ≠ b :=
      fun h => hcd (Char.toNat_inj.mp (hv.symm.trans ((congrArg UInt8.toNat h).trans hd.symm)))
    have hlow : (0x20 : UInt8).toNat ≤ (UInt8.ofNat c.toNat).toNat := by
      rw [hv]
      exact hcontrol
    rw [utf8EncodeChar_of_ascii hascii]
    intro b hb
    obtain rfl := List.mem_singleton.mp hb
    refine ⟨not_lt_of_toNat_le hlow, ?_, ?_⟩
    · exact hne '"' _ rfl hquote
    · exact hne '\\' _ rfl hescape
  · intro b hb
    exact plain_of_high (high_of_mem_utf8EncodeChar (by omega) b hb)

/-- The escape by number has the four digits of the number. -/
theorem unit?_controlChars {n : Nat} (h : n < 0x20) : ∃ digits : List UInt8,
    utf8Chars (Value.controlChars n) = 0x5C :: 0x75 :: digits ∧ digits.length = 4 ∧
      Scan.unit? digits = some n := by
  have hall : ∀ n < 0x20,
      Scan.unit? (utf8Chars ['0', '0', hexDigit (n / 16), hexDigit (n % 16)]) = some n ∧
      (utf8Chars ['0', '0', hexDigit (n / 16), hexDigit (n % 16)]).length = 4 := by decide
  obtain ⟨hunit, hlength⟩ := hall n h
  exact ⟨_, rfl, hlength, hunit⟩

theorem pieces_escapeChar (c : Char) :
    Pieces (charPieces c) (utf8Chars (Value.escapeChar c)) := by
  have hshort {e b : UInt8} (h : Scan.escaped? e = some b) : Pieces [.octet b] [0x5C, e] :=
    .cons (.escape h) .nil
  unfold Value.escapeChar
  split
  · exact hshort (e := 0x22) rfl
  · exact hshort (e := 0x5C) rfl
  · exact hshort (e := 0x62) rfl
  · exact hshort (e := 0x66) rfl
  · exact hshort (e := 0x6E) rfl
  · exact hshort (e := 0x72) rfl
  · exact hshort (e := 0x74) rfl
  next hquote hescape hb hf hn hr ht =>
    split_ifs with hcontrol
    · have hlong : ¬c = '\x08' ∧ ¬c = '\x0c' ∧ ¬c = '\n' ∧ ¬c = '\r' ∧ ¬c = '\t' :=
        ⟨hb, hf, hn, hr, ht⟩
      have hnumber : isEscapedByNumber c = true := by
        simpa [isEscapedByNumber, hcontrol] using hlong
      obtain ⟨digits, htext, hlength, hunit⟩ := unit?_controlChars hcontrol
      rw [charPieces, if_pos hnumber, htext]
      simpa using Pieces.cons (.unit hlength hunit) .nil
    · have hnumber : isEscapedByNumber c = false := by simp [isEscapedByNumber, hcontrol]
      rw [charPieces, if_neg (by simp [hnumber]), utf8Chars_cons]
      simpa [utf8Chars] using
        pieces_plain
          (plain_utf8EncodeChar (by omega) (by simpa using hquote) (by simpa using hescape))

theorem pieces_string (s : String) :
    Pieces (StringText.ofString s).pieces (utf8Chars (s.toList.flatMap Value.escapeChar)) := by
  change Pieces (s.toList.flatMap charPieces) _
  induction s.toList with
  | nil => exact .nil
  | cons c cs ih =>
    rw [List.flatMap_cons, List.flatMap_cons, utf8Chars_append]
    exact pieces_append (pieces_escapeChar c) ih

theorem spelled_string (s : String) :
    Token.Spelled (.string (StringText.ofString s)) (utf8Chars (Value.stringChars s)) := by
  have htext : utf8Chars (Value.stringChars s) =
      0x22 :: (utf8Chars (s.toList.flatMap Value.escapeChar) ++ [0x22]) := by
    rw [Value.stringChars, List.cons_append, utf8Chars_cons, utf8Chars_append]
    rfl
  rw [htext]
  exact .string (pieces_string s)

/-! ### Values -/

mutual

/-- A value as a reader finds it in its text. Floating-point numbers are left out. -/
def Value.draft : Value → Draft
  | .null => .null
  | .bool b => .bool b
  | .number (.integer n) => .number (.ofInt n)
  | .number (.float _) => .broken .malformed
  | .string s => .string (.ofString s)
  | .array items => .array (draftItems items) none
  | .object members => .object (draftMembers members) none

def draftItems : List Value → List Draft
  | [] => []
  | v :: rest => v.draft :: draftItems rest

def draftMembers : List (String × Value) → List (StringText × Draft)
  | [] => []
  | (k, v) :: rest => (.ofString k, v.draft) :: draftMembers rest

end

theorem draftItems_eq_map (items : List Value) : draftItems items = items.map Value.draft := by
  induction items with
  | nil => rfl
  | cons v rest ih => rw [draftItems, ih, List.map_cons]

theorem draftMembers_eq_map (members : List (String × Value)) :
    draftMembers members = members.map fun m => (StringText.ofString m.1, m.2.draft) := by
  induction members with
  | nil => rfl
  | cons m rest ih => rw [draftMembers, ih, List.map_cons]

/-- All numbers in the value are integers. -/
inductive Value.Integral : Value → Prop
  | null : Integral .null
  | bool (b : Bool) : Integral (.bool b)
  | integer (n : Int) : Integral (.integer n)
  | string (s : String) : Integral (.string s)
  | array {items : List Value} (h : ∀ v ∈ items, Integral v) : Integral (.array items)
  | object {members : List (String × Value)} (h : ∀ m ∈ members, Integral m.2) :
      Integral (.object members)

end GatewayAdmin.Json
