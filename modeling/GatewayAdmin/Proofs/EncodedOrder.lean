import GatewayAdmin.Proofs.CanonicalGrammar

/-! The order of the canonical query, and the order of what is written in it. Fields are sorted by
the octets they stand for, before they are encoded. An escape begins with `%`, which comes before
every unreserved character, so encoding keeps the order of two octets unless the smaller one stands
for itself and the larger one is escaped. -/
namespace GatewayAdmin

open Text

namespace Percent

/-- At the first octet in which they differ, the first text has one that stands for itself and the
second one that is escaped. -/
def overtaken : List UInt8 → List UInt8 → Bool
  | x :: xs, y :: ys => if x = y then overtaken xs ys else isUnreserved x && !isUnreserved y
  | _, _ => false

theorem overtaken_self (bs : List UInt8) : overtaken bs bs = false := by
  induction bs with
  | nil => rfl
  | cons b bs ih => rw [overtaken, if_pos rfl, ih]

theorem utf8Chars_encode_cons (b : UInt8) (bs : List UInt8) :
    utf8Chars (encode (b :: bs)) = utf8Chars (encodeByte b) ++ utf8Chars (encode bs) := by
  rw [encode, List.flatMap_cons, utf8Chars_append, ← encode]

theorem utf8Chars_encode_inj {as bs : List UInt8} :
    utf8Chars (encode as) = utf8Chars (encode bs) ↔ as = bs :=
  (utf8Chars_injective.comp encode_injective).eq_iff

theorem percent_lt_of_isUnreserved {b : UInt8} (h : isUnreserved b = true) : 0x25 < b := by
  simp only [isUnreserved, Bool.or_eq_true, Bool.and_eq_true, decide_eq_true_eq,
    UInt8.le_iff_toNat_le, ← UInt8.toNat_inj] at h
  rw [UInt8.lt_iff_toNat_lt]
  simp at h ⊢
  omega

/-- The octet of a digit in an escape. -/
def digitOctet (n : Nat) : UInt8 := UInt8.ofNat (hexDigitUpper n).toNat

theorem digitOctet_lt_iff {m n : Nat} (hm : m < 16) (hn : n < 16) :
    digitOctet m < digitOctet n ↔ m < n :=
  (by decide : ∀ m < 16, ∀ n < 16, digitOctet m < digitOctet n ↔ m < n) m hm n hn

theorem utf8Chars_encodeByte_of_unreserved {b : UInt8} (h : isUnreserved b = true) :
    utf8Chars (encodeByte b) = [b] := by
  rw [encodeByte, if_pos h, utf8Chars, List.flatMap_singleton,
    utf8EncodeChar_ofNat (isUnreserved_lt h)]

theorem utf8Chars_encodeByte_of_escaped {b : UInt8} (h : isUnreserved b = false) :
    utf8Chars (encodeByte b) =
      [0x25, digitOctet (b.toNat / 16), digitOctet (b.toNat % 16)] := by
  have hb := b.toNat_lt
  have hdigit : ∀ n < 16, (hexDigitUpper n).toNat < 0x80 := by decide
  rw [encodeByte, h, if_neg Bool.false_ne_true, escape, utf8Chars_cons, utf8Chars_cons,
    utf8Chars_cons, utf8EncodeChar_of_ascii (hdigit _ (by omega)),
    utf8EncodeChar_of_ascii (hdigit _ (by omega))]
  rfl

/-- Escapes are in the order of the octets that they name. -/
theorem encodeByte_lt_of_escaped {x y : UInt8} (hx : isUnreserved x = false)
    (hy : isUnreserved y = false) (h : x < y) :
    utf8Chars (encodeByte x) < utf8Chars (encodeByte y) := by
  have hxlt := x.toNat_lt
  have hylt := y.toNat_lt
  have hlt : x.toNat < y.toNat := UInt8.lt_iff_toNat_lt.mp h
  rw [utf8Chars_encodeByte_of_escaped hx, utf8Chars_encodeByte_of_escaped hy,
    List.cons_lt_cons_iff, List.cons_lt_cons_iff, List.cons_lt_cons_iff,
    digitOctet_lt_iff (by omega) (by omega), digitOctet_lt_iff (by omega) (by omega)]
  right
  refine ⟨rfl, ?_⟩
  by_cases hhigh : x.toNat / 16 = y.toNat / 16
  · exact .inr ⟨congrArg digitOctet hhigh, .inl (by omega)⟩
  · exact .inl (by omega)

/-- Two octets, written in front of whatever follows, keep their order unless only the larger one is
escaped. -/
theorem encodeByte_append_lt_iff {x y : UInt8} (h : x < y) (us vs : List UInt8) :
    utf8Chars (encodeByte x) ++ us < utf8Chars (encodeByte y) ++ vs ↔
      (isUnreserved x && !isUnreserved y) = false := by
  cases hx : isUnreserved x with
  | false =>
    cases hy : isUnreserved y with
    | false =>
      have hlength :
          (utf8Chars (encodeByte x)).length = (utf8Chars (encodeByte y)).length := by
        rw [utf8Chars_encodeByte_of_escaped hx, utf8Chars_encodeByte_of_escaped hy]
        rfl
      have hescape := encodeByte_lt_of_escaped hx hy h
      simp [append_lt_append_iff hlength, hescape]
    | true =>
      have hfirst := percent_lt_of_isUnreserved hy
      rw [utf8Chars_encodeByte_of_escaped hx, utf8Chars_encodeByte_of_unreserved hy]
      simp [List.cons_lt_cons_iff, hfirst]
  | true =>
    cases hy : isUnreserved y with
    | false =>
      have hfirst := percent_lt_of_isUnreserved hx
      rw [utf8Chars_encodeByte_of_unreserved hx, utf8Chars_encodeByte_of_escaped hy]
      simp [List.cons_lt_cons_iff, UInt8.le_of_lt hfirst, (UInt8.ne_of_lt hfirst).symm]
    | true =>
      rw [utf8Chars_encodeByte_of_unreserved hx, utf8Chars_encodeByte_of_unreserved hy]
      simp [List.cons_lt_cons_iff, h]

theorem utf8Chars_encode_lt_iff {as bs : List UInt8} (h : as < bs) :
    utf8Chars (encode as) < utf8Chars (encode bs) ↔ overtaken as bs = false := by
  induction as generalizing bs with
  | nil =>
    cases bs with
    | nil => exact absurd h (List.not_lt_nil [])
    | cons y ys =>
      have hne : utf8Chars (encode (y :: ys)) ≠ utf8Chars (encode []) :=
        mt utf8Chars_encode_inj.mp (List.cons_ne_nil y ys)
      obtain ⟨first, rest, hwritten⟩ := List.exists_cons_of_ne_nil hne
      rw [hwritten]
      exact iff_of_true (List.nil_lt_cons first rest) rfl
  | cons x xs ih =>
    cases bs with
    | nil => exact absurd h (List.not_lt_nil (x :: xs))
    | cons y ys =>
      rw [utf8Chars_encode_cons, utf8Chars_encode_cons, overtaken]
      rcases List.cons_lt_cons_iff.mp h with hhead | ⟨rfl, htail⟩
      · rw [if_neg (UInt8.ne_of_lt hhead), encodeByte_append_lt_iff hhead]
      · rw [if_pos rfl, append_lt_append_iff rfl, ← ih htail]
        simp [List.lt_irrefl]

theorem utf8Chars_encode_le_iff {as bs : List UInt8} (h : as ≤ bs) :
    utf8Chars (encode as) ≤ utf8Chars (encode bs) ↔ overtaken as bs = false := by
  by_cases heq : as = bs
  · simp [heq, overtaken_self]
  · have hlt : as < bs := Std.lt_of_le_of_ne h heq
    rw [← utf8Chars_encode_lt_iff hlt, Std.lt_iff_le_and_ne]
    simp [utf8Chars_encode_inj, heq]

end Percent

namespace Canonical

/-- Of two pairs in the order of their octets: they are not in the order of what is written for
them. Keys decide, and values where the keys are the same. -/
def overtakenPair (a b : Pair) : Bool :=
  if a.1 = b.1 then Percent.overtaken a.2 b.2 else Percent.overtaken a.1 b.1

namespace QueryField

def ofChars (field : List Char) : QueryField :=
  let p := splitFirst '=' field
  ⟨p.1, p.2.getD []⟩

/-- What is written, in octets. -/
def octets (f : QueryField) : Pair := (utf8Chars f.key, utf8Chars f.value)

/-- The order of what is written: byte order of the keys, then of the values. -/
def le (f g : QueryField) : Bool := pairLe f.octets g.octets

theorem ofChars_pairChars (p : Pair) : ofChars (pairChars p) = ofPair p := by
  have hk : '=' ∉ Percent.encode p.1 := Percent.not_mem_encode (by decide) p.1
  simp [ofChars, pairChars, splitFirst_append hk, ofPair]

theorem octets_injective : Function.Injective octets := by
  rintro ⟨key, value⟩ ⟨key', value'⟩ h
  obtain ⟨hkey, hvalue⟩ := Prod.mk.inj h
  obtain rfl : key = key' := utf8Chars_injective hkey
  obtain rfl : value = value' := utf8Chars_injective hvalue
  rfl

theorem le_ofPair_iff {a b : Pair} (h : pairLe a b = true) :
    (ofPair a).le (ofPair b) = true ↔ overtakenPair a b = false := by
  rw [le, pairLe_iff, overtakenPair, octets, octets]
  rcases pairLe_iff.mp h with hkey | ⟨hkey, hvalue⟩
  · have hne : a.1 ≠ b.1 := Std.ne_of_lt hkey
    rw [if_neg hne, ← Percent.utf8Chars_encode_lt_iff hkey]
    simp [ofPair, Percent.utf8Chars_encode_inj, hne]
  · rw [if_pos hkey, ← Percent.utf8Chars_encode_le_iff hvalue]
    simp [ofPair, hkey, List.lt_irrefl]

end QueryField

/-- The fields of a query as they are written in it. -/
def writtenFields (q : String) : List QueryField :=
  ((q.toList.splitOn '&').filter (!·.isEmpty)).map QueryField.ofChars

theorem writtenFields_query (q : String) :
    writtenFields (query q) = (sortPairs (pairs q)).map QueryField.ofPair := by
  rw [writtenFields, query, String.toList_ofList, filter_splitOn_pairChars, List.map_map]
  exact List.map_congr_left fun p _ => QueryField.ofChars_pairChars p

/-- The line of one who encodes the same pairs first, and then sorts what is written. -/
def querySortedAsWritten (q : String) : String :=
  let fields := ((pairs q).map QueryField.ofPair).mergeSort QueryField.le
  String.ofList (['&'].intercalate (fields.map QueryField.chars))

/-- The order of what is written for two pairs. -/
def writtenLe (a b : Pair) : Bool := (QueryField.ofPair a).le (QueryField.ofPair b)

theorem writtenLe_antisymm {a b : Pair} (hab : writtenLe a b = true) (hba : writtenLe b a = true) :
    a = b := by
  have hfields := QueryField.octets_injective (pairLe_antisymm hab hba)
  rw [← QueryField.pair_ofPair a, hfields, QueryField.pair_ofPair]

theorem querySortedAsWritten_eq (q : String) :
    querySortedAsWritten q =
      String.ofList (['&'].intercalate (((pairs q).mergeSort writtenLe).map pairChars)) := by
  have hsort : ((pairs q).map QueryField.ofPair).mergeSort QueryField.le =
      ((pairs q).mergeSort writtenLe).map QueryField.ofPair :=
    (List.map_mergeSort (f := QueryField.ofPair) (s := QueryField.le) fun _ _ _ _ => rfl).symm
  rw [querySortedAsWritten, hsort, List.map_map]
  rfl

/-- Sorting by what is written leads to the one order in which that is sorted. -/
theorem mergeSort_writtenLe_eq_iff {ps qs : List Pair} (h : ps.Perm qs) :
    ps.mergeSort writtenLe = qs ↔ qs.Pairwise fun a b => writtenLe a b = true := by
  have htrans (a b c : Pair) (hab : writtenLe a b = true) (hbc : writtenLe b c = true) :
      writtenLe a c = true := pairLe_trans _ _ _ hab hbc
  have htotal (a b : Pair) : (writtenLe a b || writtenLe b a) = true := pairLe_total _ _
  have hsorted : (ps.mergeSort writtenLe).Pairwise fun a b => writtenLe a b = true :=
    List.pairwise_mergeSort htrans htotal ps
  constructor
  · intro heq
    rwa [heq] at hsorted
  · intro hqs
    have hperm : (ps.mergeSort writtenLe).Perm qs := (List.mergeSort_perm ps writtenLe).trans h
    exact hperm.eq_of_pairwise (fun _ _ _ _ => writtenLe_antisymm) hsorted hqs

theorem pairwise_writtenLe_iff (ps : List Pair) :
    ((sortPairs ps).Pairwise fun a b => writtenLe a b = true) ↔
      (sortPairs ps).Pairwise fun a b => overtakenPair a b = false := by
  have hsorted := sortPairs_pairwise ps
  constructor
  · exact hsorted.imp₂ fun _ _ h => (QueryField.le_ofPair_iff h).mp
  · exact hsorted.imp₂ fun _ _ h => (QueryField.le_ofPair_iff h).mpr

/-- The pairs of a canonical query are in the order of their octets. What is written in it is in
order as well, and is the line of one who sorts what is written, exactly when no pair is overtaken
by one behind it. -/
theorem query_sorted_as_written_iff (q : String) :
    (pairs (query q)).Pairwise (fun a b => a.1 < b.1 ∨ a.1 = b.1 ∧ a.2 ≤ b.2) ∧
    ((writtenFields (query q)).Pairwise (fun f g => f.le g = true) ↔
      (pairs (query q)).Pairwise fun a b => overtakenPair a b = false) ∧
    (querySortedAsWritten q = query q ↔
      (pairs (query q)).Pairwise fun a b => overtakenPair a b = false) := by
  rw [pairs_query, writtenFields_query, List.pairwise_map, querySortedAsWritten_eq]
  refine ⟨(sortPairs_pairwise (pairs q)).imp pairLe_iff.mp, pairwise_writtenLe_iff (pairs q), ?_⟩
  rw [← pairwise_writtenLe_iff, ← mergeSort_writtenLe_eq_iff (sortPairs_perm (pairs q)).symm]
  constructor
  · intro h
    have hread := congrArg (fun line : String => pairsOf line.toList) h
    simpa [query, pairsOf_intercalate_pairChars] using hread
  · intro h
    rw [h, query]

/-- A letter and an octet above all letters: the escape is written with a percent sign, and that
comes before the letter. -/
theorem query_not_sorted_as_written :
    query "k=a&k=%FF" = "k=a&k=%FF" ∧
    ¬ (writtenFields (query "k=a&k=%FF")).Pairwise (fun f g => f.le g = true) ∧
    querySortedAsWritten "k=a&k=%FF" = "k=%FF&k=a" := by
  have hpairs : pairs "k=a&k=%FF" = [([0x6B], [0x61]), ([0x6B], [0xFF])] := by decide
  have hsorted : sortPairs (pairs "k=a&k=%FF") = pairs "k=a&k=%FF" := by
    rw [hpairs]
    exact List.mergeSort_of_pairwise (by decide)
  have hwritten : (pairs "k=a&k=%FF").mergeSort writtenLe =
      [([0x6B], [0xFF]), ([0x6B], [0x61])] := by
    rw [hpairs]
    exact (mergeSort_writtenLe_eq_iff (List.Perm.swap _ _ [])).mpr (by decide)
  refine ⟨?_, ?_, ?_⟩
  · rw [query, hsorted, hpairs]
    decide
  · rw [writtenFields_query, hsorted, hpairs]
    decide
  · rw [querySortedAsWritten_eq, hwritten]
    decide

end Canonical
end GatewayAdmin
