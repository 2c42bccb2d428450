import GatewayAdmin.Percent
import GatewayAdmin.Proofs.VisibleText

/-! Percent-encoded text: reading undoes writing whatever the octets are and whatever follows, and
written text is made of unreserved characters and percent signs alone. -/
namespace GatewayAdmin.Percent

open Text

theorem hexValue?_hexDigitUpper {n : Nat} (h : n < 16) : hexValue? (hexDigitUpper n) = some n :=
  (by decide : ∀ n < 16, hexValue? (hexDigitUpper n) = some n) n h

theorem isUnreserved_lt {b : UInt8} (h : isUnreserved b = true) : b.toNat < 128 := by
  simp only [isUnreserved, Bool.or_eq_true, Bool.and_eq_true, decide_eq_true_eq,
    UInt8.le_iff_toNat_le, ← UInt8.toNat_inj] at h
  simp at h
  omega

/-- An unreserved octet, as a character of a text. -/
def isUnreservedChar (c : Char) : Bool := c.toNat < 128 && isUnreserved (UInt8.ofNat c.toNat)

/-- The characters of encoded text. -/
def isCodeChar (c : Char) : Bool := c = '%' || isUnreservedChar c

theorem decode_cons_of_ne {c : Char} (h : c ≠ '%') (cs : List Char) :
    decode (c :: cs) = String.utf8EncodeChar c ++ decode cs := by
  rw [decode]
  intro a b r hc
  simp_all

theorem decode_of_not_mem {cs : List Char} (h : '%' ∉ cs) : decode cs = utf8Chars cs := by
  induction cs with
  | nil => rfl
  | cons c cs ih =>
    simp only [List.mem_cons, not_or] at h
    rw [decode_cons_of_ne (Ne.symm h.1), ih h.2, utf8Chars, utf8Chars, List.flatMap_cons]

theorem decode_escape_append (b : UInt8) (rest : List Char) :
    decode (escape b ++ rest) = b :: decode rest := by
  have hb := b.toNat_lt
  have hi : b.toNat / 16 < 16 := by omega
  have lo : b.toNat % 16 < 16 := by omega
  have hs : 16 * (b.toNat / 16) + b.toNat % 16 = b.toNat := by omega
  simp only [escape, List.cons_append, List.nil_append, decode, hexValue?_hexDigitUpper hi,
    hexValue?_hexDigitUpper lo, hs, UInt8.ofNat_toNat]

theorem isUnreservedChar_ofNat {b : UInt8} (h : isUnreserved b = true) :
    isUnreservedChar (Char.ofNat b.toNat) = true := by
  have hn : ∀ n < 128, isUnreserved (UInt8.ofNat n) = true →
      isUnreservedChar (Char.ofNat n) = true := by decide +kernel
  apply hn b.toNat (isUnreserved_lt h)
  rwa [UInt8.ofNat_toNat]

theorem utf8EncodeChar_ofNat {b : UInt8} (h : b.toNat < 128) :
    String.utf8EncodeChar (Char.ofNat b.toNat) = [b] := by
  have hn : ∀ n < 128, String.utf8EncodeChar (Char.ofNat n) = [UInt8.ofNat n] := by
    decide +kernel
  rw [hn b.toNat h, UInt8.ofNat_toNat]

theorem percent_not_isUnreservedChar : isUnreservedChar '%' = false := by decide

/-- Reading one written octet leaves what follows it to be read. -/
theorem decode_encodeByte_append (b : UInt8) (rest : List Char) :
    decode (encodeByte b ++ rest) = b :: decode rest := by
  unfold encodeByte
  split_ifs with h
  · have hc : Char.ofNat b.toNat ≠ '%' := by
      intro he
      have hu := isUnreservedChar_ofNat h
      rw [he, percent_not_isUnreservedChar] at hu
      contradiction
    rw [List.singleton_append, decode_cons_of_ne hc, utf8EncodeChar_ofNat (isUnreserved_lt h)]
    rfl
  · exact decode_escape_append b rest

theorem decode_encode_append (bs : List UInt8) (rest : List Char) :
    decode (encode bs ++ rest) = bs ++ decode rest := by
  induction bs with
  | nil => rfl
  | cons b bs ih =>
    rw [encode, List.flatMap_cons, List.append_assoc, decode_encodeByte_append, ← encode, ih,
      List.cons_append]

@[simp] theorem decode_encode (bs : List UInt8) : decode (encode bs) = bs := by
  simpa [decode] using decode_encode_append bs []

theorem encode_injective : Function.Injective encode :=
  Function.LeftInverse.injective decode_encode

theorem hexDigitUpper_isUnreservedChar {n : Nat} (h : n < 16) :
    isUnreservedChar (hexDigitUpper n) = true :=
  (by decide : ∀ n < 16, isUnreservedChar (hexDigitUpper n) = true) n h

theorem isCodeChar_of_mem_encodeByte {b : UInt8} {c : Char} (h : c ∈ encodeByte b) :
    isCodeChar c = true := by
  have hb := b.toNat_lt
  unfold encodeByte at h
  split_ifs at h with hu
  · rw [List.mem_singleton.mp h, isCodeChar, isUnreservedChar_ofNat hu, Bool.or_true]
  · simp only [escape, List.mem_cons, List.not_mem_nil, or_false] at h
    rcases h with rfl | rfl | rfl
    · rfl
    · rw [isCodeChar, hexDigitUpper_isUnreservedChar (by omega), Bool.or_true]
    · rw [isCodeChar, hexDigitUpper_isUnreservedChar (by omega), Bool.or_true]

theorem isCodeChar_of_mem_encode {bs : List UInt8} {c : Char} (h : c ∈ encode bs) :
    isCodeChar c = true := by
  obtain ⟨b, _, hc⟩ := List.mem_flatMap.mp h
  exact isCodeChar_of_mem_encodeByte hc

/-- No separator of a path, a query or a text of lines can occur in an encoded part. -/
theorem not_mem_encode {c : Char} (h : isCodeChar c = false) (bs : List UInt8) :
    c ∉ encode bs := not_mem_of_class (fun _ => isCodeChar_of_mem_encode) h

theorem isUnreservedChar_lt {c : Char} (h : isUnreservedChar c = true) : c.toNat < 128 := by
  simp only [isUnreservedChar, Bool.and_eq_true, decide_eq_true_eq] at h
  exact h.1

theorem isCodeChar_lt (c : Char) (h : isCodeChar c = true) : c.toNat < 128 := by
  simp only [isCodeChar, Bool.or_eq_true, decide_eq_true_eq] at h
  rcases h with rfl | h
  · decide
  · exact isUnreservedChar_lt h

end GatewayAdmin.Percent
