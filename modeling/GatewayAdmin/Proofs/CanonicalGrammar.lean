import GatewayAdmin.Proofs.CanonicalPath
import GatewayAdmin.Proofs.CanonicalQuery
import GatewayAdmin.Proofs.Utf8Text

/-! The texts that are canonical. Encoded text has a grammar of its own, in which every octet has
one spelling; a canonical path is such text between slashes, and a canonical query is a list of
such keys and values in the order of their octets. Making a text canonical leads into the grammar,
and leaves alone what is in it. -/
namespace GatewayAdmin

open Text

namespace Percent

/-- The value of a digit that escapes are written with: `0` to `9` and `A` to `F`. -/
def escapeDigit? (c : Char) : Option Nat :=
  if '0' ≤ c ∧ c ≤ '9' then some (c.toNat - '0'.toNat)
  else if 'A' ≤ c ∧ c ≤ 'F' then some (c.toNat - 'A'.toNat + 10)
  else none

/-- Text in which unreserved characters stand for themselves and all other octets are escaped. -/
inductive Normal : List Char → Prop
  | nil : Normal []
  | unreserved {c : Char} {cs : List Char} : isUnreservedChar c = true → Normal cs →
      Normal (c :: cs)
  | escaped {a b : Char} {high low : Nat} {cs : List Char} : escapeDigit? a = some high →
      escapeDigit? b = some low → isUnreserved (UInt8.ofNat (16 * high + low)) = false →
      Normal cs → Normal ('%' :: a :: b :: cs)

theorem escapeDigit?_hexDigitUpper {n : Nat} (h : n < 16) :
    escapeDigit? (hexDigitUpper n) = some n :=
  (by decide : ∀ n < 16, escapeDigit? (hexDigitUpper n) = some n) n h

/-- Each value has one digit in escapes, the one that is written. -/
theorem eq_hexDigitUpper_of_escapeDigit? {c : Char} {n : Nat} (h : escapeDigit? c = some n) :
    n < 16 ∧ c = hexDigitUpper n := by
  unfold escapeDigit? at h
  split_ifs at h with hdigit hletter
  · obtain ⟨hl, hh⟩ := hdigit
    change 48 ≤ c.toNat at hl
    change c.toNat ≤ 57 at hh
    have hn : c.toNat - 48 = n := Option.some.inj h
    have hc : 48 + n = c.toNat := by omega
    refine ⟨by omega, ?_⟩
    rw [hexDigitUpper, if_pos (by omega), hc, Char.ofNat_toNat]
  · obtain ⟨hl, hh⟩ := hletter
    change 65 ≤ c.toNat at hl
    change c.toNat ≤ 70 at hh
    have hn : c.toNat - 65 + 10 = n := Option.some.inj h
    have hc : 55 + n = c.toNat := by omega
    refine ⟨by omega, ?_⟩
    rw [hexDigitUpper, if_neg (by omega), hc, Char.ofNat_toNat]

theorem Normal.encodeByte_append (b : UInt8) {cs : List Char} (h : Normal cs) :
    Normal (encodeByte b ++ cs) := by
  have hb := b.toNat_lt
  unfold encodeByte
  split_ifs with hu
  · exact .unreserved (isUnreservedChar_ofNat hu) h
  · have hhigh := escapeDigit?_hexDigitUpper (show b.toNat / 16 < 16 by omega)
    have hlow := escapeDigit?_hexDigitUpper (show b.toNat % 16 < 16 by omega)
    have hs : 16 * (b.toNat / 16) + b.toNat % 16 = b.toNat := by omega
    apply Normal.escaped hhigh hlow _ h
    rwa [hs, UInt8.ofNat_toNat, ← Bool.not_eq_true]

theorem normal_encode (bs : List UInt8) : Normal (encode bs) := by
  induction bs with
  | nil => exact .nil
  | cons b bs ih => exact ih.encodeByte_append b

theorem encodeByte_of_isUnreservedChar {c : Char} (h : isUnreservedChar c = true) :
    encodeByte (UInt8.ofNat c.toNat) = [c] := by
  have hc := isUnreservedChar_lt h
  simp only [isUnreservedChar, Bool.and_eq_true] at h
  have hn : (UInt8.ofNat c.toNat).toNat = c.toNat := by
    rw [UInt8.toNat_ofNat', Nat.mod_eq_of_lt (by omega)]
  rw [encodeByte, if_pos h.2, hn, Char.ofNat_toNat]

theorem encodeByte_of_escaped {high low : Nat} (hhigh : high < 16) (hlow : low < 16)
    (h : isUnreserved (UInt8.ofNat (16 * high + low)) = false) :
    encodeByte (UInt8.ofNat (16 * high + low)) =
      ['%', hexDigitUpper high, hexDigitUpper low] := by
  have hn : (UInt8.ofNat (16 * high + low)).toNat = 16 * high + low := by
    rw [UInt8.toNat_ofNat', Nat.mod_eq_of_lt (by omega)]
  have hd : (16 * high + low) / 16 = high := by omega
  have hm : (16 * high + low) % 16 = low := by omega
  rw [encodeByte, h, if_neg Bool.false_ne_true, escape, hn, hd, hm]

/-- Reading normal text and writing it again changes nothing: it holds no escape that the writer
would not have made, and none in another spelling. -/
theorem Normal.encode_decode {cs : List Char} (h : Normal cs) : encode (decode cs) = cs := by
  induction h with
  | nil => rfl
  | @unreserved c cs hc _ ih =>
    have hne : c ≠ '%' := by
      rintro rfl
      rw [percent_not_isUnreservedChar] at hc
      contradiction
    rw [decode_cons_of_ne hne, utf8EncodeChar_of_ascii (isUnreservedChar_lt hc),
      List.singleton_append, encode, List.flatMap_cons, ← encode, ih,
      encodeByte_of_isUnreservedChar hc, List.singleton_append]
  | @escaped a b high low cs ha hb hoctet _ ih =>
    obtain ⟨hhigh, rfl⟩ := eq_hexDigitUpper_of_escapeDigit? ha
    obtain ⟨hlow, rfl⟩ := eq_hexDigitUpper_of_escapeDigit? hb
    simp only [decode, hexValue?_hexDigitUpper hhigh, hexValue?_hexDigitUpper hlow]
    rw [encode, List.flatMap_cons, ← encode, ih, encodeByte_of_escaped hhigh hlow hoctet]
    rfl

theorem decode_ne_nil {cs : List Char} (h : cs ≠ []) : decode cs ≠ [] := by
  fun_cases decode cs with
  | case1 => contradiction
  | case2 => exact List.cons_ne_nil _ _
  | case3 => exact List.cons_ne_nil _ _
  | case4 => exact List.append_ne_nil_of_left_ne_nil String.utf8EncodeChar_ne_nil _

end Percent

namespace Canonical

/-! ### Paths -/

/-- No path is without a segment: the root has two, and all other texts have characters. -/
theorem segments_ne_singleton_nil (p : String) : segments p ≠ [[]] := by
  intro h
  obtain ⟨piece, hcut, hpiece⟩ := List.map_eq_singleton_iff.mp h
  have hnil : piece = [] := by
    by_contra hne
    exact Percent.decode_ne_nil hne hpiece
  have hjoin : ['/'].intercalate ((if p = "" then ['/'] else p.toList).splitOn '/') =
      if p = "" then ['/'] else p.toList := List.intercalate_splitOn _
  rw [hcut, hnil, List.intercalate_singleton] at hjoin
  split_ifs at hjoin with hp
  exact hp (String.toList_eq_nil_iff.mp hjoin.symm)

theorem path_ne_empty (p : String) : path p ≠ "" := by
  intro h
  have hcut := splitOn_path p
  rw [h] at hcut
  have hnil : (segments p).map Percent.encode = [[]].map Percent.encode := hcut.symm
  exact segments_ne_singleton_nil p (Percent.encode_injective.list_map hnil)

/-- The canonical path has the segments of the path, escaped slashes included. -/
theorem segments_path (p : String) : segments (path p) = segments p := by
  rw [segments, if_neg (path_ne_empty p), splitOn_path, List.map_map]
  simp [Function.comp_def]

theorem count_slash_path (p : String) :
    (path p).toList.count '/' = if p = "" then 1 else p.toList.count '/' := by
  have hlength : ((path p).toList.splitOn '/').length = (segments p).length := by
    rw [splitOn_path, List.length_map]
  rw [segments, List.length_map, length_splitOn, length_splitOn] at hlength
  split_ifs with hp
  · rw [if_pos hp] at hlength
    exact Nat.succ.inj hlength
  · rw [if_neg hp] at hlength
    exact Nat.succ.inj hlength

/-- Two paths have one canonical form exactly when they have the same segments, octet for octet.
The form has the segments of its path, with as many slashes, each segment in the only spelling
there is for it, and is its own canonical form. -/
theorem path_normal_form (p : String) :
    (∀ q, path p = path q ↔ segments p = segments q) ∧
    segments (path p) = segments p ∧
    (path p).toList.count '/' = (if p = "" then 1 else p.toList.count '/') ∧
    (∀ piece ∈ (path p).toList.splitOn '/', Percent.Normal piece) ∧
    path (path p) = path p := by
  refine ⟨fun q => path_eq_path_iff, segments_path p, count_slash_path p, ?_, ?_⟩
  · rw [splitOn_path]
    intro piece hp
    obtain ⟨bs, -, rfl⟩ := List.mem_map.mp hp
    exact Percent.normal_encode bs
  · exact path_eq_path_iff.mpr (segments_path p)

/-- An escaped slash stays inside its segment, and empty segments and dots stay as well. -/
example : path "/a%2fb//%7E/../%zz" = "/a%2Fb//~/../%25zz" := by decide

/-! ### Queries -/

/-- A key and a value as they stand in a query. -/
structure QueryField where
  key : List Char
  value : List Char

namespace QueryField

def chars (f : QueryField) : List Char := f.key ++ '=' :: f.value

def pair (f : QueryField) : Pair := (Percent.decode f.key, Percent.decode f.value)

def ofPair (p : Pair) : QueryField := ⟨Percent.encode p.1, Percent.encode p.2⟩

theorem pair_ofPair (p : Pair) : (ofPair p).pair = p := by simp [pair, ofPair]

end QueryField

/-- `q` consists of these fields with `&` between them: keys and values are normal text, and their
octets rise from field to field. -/
structure IsCanonicalQuery (q : String) (fields : List QueryField) : Prop where
  text : q.toList = ['&'].intercalate (fields.map QueryField.chars)
  normal : ∀ f ∈ fields, Percent.Normal f.key ∧ Percent.Normal f.value
  sorted : (fields.map QueryField.pair).Pairwise fun a b => a.1 < b.1 ∨ a.1 = b.1 ∧ a.2 ≤ b.2

theorem isCanonicalQuery_query (q : String) :
    IsCanonicalQuery (query q) ((sortPairs (pairs q)).map QueryField.ofPair) where
  text := by
    rw [query, String.toList_ofList, List.map_map]
    rfl
  normal := by
    intro f hf
    obtain ⟨p, -, rfl⟩ := List.mem_map.mp hf
    exact ⟨Percent.normal_encode p.1, Percent.normal_encode p.2⟩
  sorted := by
    have hpairs : QueryField.pair ∘ QueryField.ofPair = id := funext QueryField.pair_ofPair
    rw [List.map_map, hpairs, List.map_id]
    exact (sortPairs_pairwise (pairs q)).imp pairLe_iff.mp

namespace IsCanonicalQuery

variable {q : String} {fields : List QueryField}

/-- Fields of normal text are written for the pairs that they are read as. -/
theorem map_chars (h : IsCanonicalQuery q fields) :
    fields.map QueryField.chars = (fields.map QueryField.pair).map pairChars := by
  rw [List.map_map]
  refine List.map_congr_left fun f hf => ?_
  obtain ⟨hkey, hvalue⟩ := h.normal f hf
  rw [QueryField.chars, Function.comp_apply, QueryField.pair, pairChars, hkey.encode_decode,
    hvalue.encode_decode]

theorem pairs_eq (h : IsCanonicalQuery q fields) : pairs q = fields.map QueryField.pair := by
  have hmark := not_mem_intercalate_pairChars (c := '?') (by decide) (by decide) (by decide)
    (fields.map QueryField.pair)
  rw [pairs, h.text, h.map_chars, dropQuestionMark_of_not_mem hmark, pairsOf_intercalate_pairChars]

/-- What the grammar takes is left as it is. -/
theorem query_eq (h : IsCanonicalQuery q fields) : query q = q := by
  have hsorted : sortPairs (fields.map QueryField.pair) = fields.map QueryField.pair :=
    List.mergeSort_of_pairwise (h.sorted.imp pairLe_iff.mpr)
  rw [query, h.pairs_eq, hsorted, ← h.map_chars, ← h.text, String.ofList_toList]

end IsCanonicalQuery

theorem isCanonicalQuery_empty : IsCanonicalQuery "" [] := ⟨rfl, by simp, by simp⟩

theorem IsCanonicalQuery.empty_or_exists {q : String} {fields : List QueryField}
    (h : IsCanonicalQuery q fields) :
    q = "" ∨ ∃ fields, fields ≠ [] ∧ IsCanonicalQuery q fields := by
  by_cases hne : fields = []
  · left
    have htext := h.text
    rw [hne] at htext
    exact String.toList_eq_nil_iff.mp htext
  · exact .inr ⟨fields, hne, h⟩

/-- Making a query canonical twice is making it canonical once. The queries that are left as they
are, and so all that are ever made, are the empty one and those of the grammar. -/
theorem query_eq_self_iff_grammar (q : String) :
    query (query q) = query q ∧
    (query q = q ↔ q = "" ∨ ∃ fields, fields ≠ [] ∧ IsCanonicalQuery q fields) ∧
    ((∃ q', query q' = q) ↔ q = "" ∨ ∃ fields, fields ≠ [] ∧ IsCanonicalQuery q fields) := by
  have hmade : ∀ q', query q' = q →
      q = "" ∨ ∃ fields, fields ≠ [] ∧ IsCanonicalQuery q fields := by
    rintro q' rfl
    exact (isCanonicalQuery_query q').empty_or_exists
  have hkept : (q = "" ∨ ∃ fields, fields ≠ [] ∧ IsCanonicalQuery q fields) → query q = q := by
    rintro (rfl | ⟨fields, -, h⟩)
    · exact isCanonicalQuery_empty.query_eq
    · exact h.query_eq
  refine ⟨(isCanonicalQuery_query q).query_eq, ⟨hmade q, hkept⟩, ?_, ?_⟩
  · rintro ⟨q', h⟩
    exact hmade q' h
  · intro h
    exact ⟨q, hkept h⟩

end Canonical
end GatewayAdmin
