import GatewayAdmin.Proofs.JsonRead
import GatewayAdmin.Proofs.JsonText

/-! Reading what values are written as: strings and integers come back, and so do whole values whose
members are kept in order, within the depth that is read. -/
namespace GatewayAdmin.Json

open Text

/-! ### Numbers -/

/-- The value of digits behind a number. -/
def digitsValue (n : Nat) (digits : List Nat) : Nat := digits.foldl (fun n d => 10 * n + d) n

theorem le_digitsValue (digits : List Nat) (n : Nat) : n ≤ digitsValue n digits := by
  induction digits generalizing n with
  | nil => exact le_rfl
  | cons d digits ih =>
    have hstep := ih (10 * n + d)
    change n ≤ digitsValue (10 * n + d) digits
    omega

/-- No digit is left out of a number that fits. -/
theorem ofDigits_eq {digits : List Nat} {n : Nat} (h : digitsValue n digits ≤ maxUInt64) :
    Significand.ofDigits n digits = ⟨digitsValue n digits, 0⟩ := by
  induction digits generalizing n with
  | nil => rfl
  | cons d digits ih =>
    have hfits : 10 * n + d ≤ maxUInt64 := (le_digitsValue digits (10 * n + d)).trans h
    have hpush : Significand.push ⟨n, 0⟩ d = ⟨10 * n + d, 0⟩ := by
      simp [Significand.push, hfits]
    rw [Significand.ofDigits, List.foldl_cons, hpush]
    exact ih h

theorem digitsValue_decimalChars (n : Nat) :
    digitsValue 0 ((decimalChars n).map digitNumber) = n := by
  rw [digitsValue, List.foldl_map]
  exact ofDigitChars_decimalChars n

/-- The integers that a JSON number may be. -/
def IsJsonInteger (n : Int) : Prop := -9223372036854775808 ≤ n ∧ n ≤ 18446744073709551615

theorem NumberText.number?_ofInt {n : Int} (h : IsJsonInteger n) :
    (NumberText.ofInt n).number? = some (.integer n) := by
  obtain ⟨hlow, hhigh⟩ := h
  have hfits : digitsValue 0 ((decimalChars n.natAbs).map digitNumber) ≤ maxUInt64 := by
    rw [digitsValue_decimalChars, maxUInt64]
    omega
  rw [NumberText.number?, NumberText.ofInt]
  simp only [ofDigits_eq hfits, digitsValue_decimalChars]
  by_cases hn : n < 0
  · have hsize : 1 ≤ n.natAbs ∧ n.natAbs ≤ 9223372036854775808 := by omega
    have hvalue : -(n.natAbs : Int) = n := by omega
    simp [hn, hsize, hvalue, -Nat.cast_natAbs]
  · have hvalue : (n.natAbs : Int) = n := by omega
    simp [hn, hvalue, -Nat.cast_natAbs]

theorem NumberText.read_ofInt {n : Int} (h : IsJsonInteger n) :
    (NumberText.ofInt n).read = .ok (.integer n) := by
  rw [NumberText.read, NumberText.number?_ofInt h]

theorem readInteger_ofInt {n low high : Int} (h : IsJsonInteger n) (hlow : low ≤ n)
    (hhigh : n ≤ high) : (Draft.number (.ofInt n)).readInteger low high = .ok n := by
  rw [Draft.readInteger, Draft.readNumber, NumberText.read_ofInt h]
  simp [bind, Except.bind, hlow, hhigh]

/-! ### Strings -/

theorem foldlM_octets (bs octets : List UInt8) :
    (bs.map StringPiece.octet).foldlM Assembly.push ⟨octets, none⟩ =
      .ok ⟨bs.reverse ++ octets, none⟩ := by
  induction bs generalizing octets with
  | nil => rfl
  | cons b bs ih =>
    rw [List.map_cons, List.foldlM_cons, List.reverse_cons, List.append_assoc]
    exact ih (b :: octets)

/-- The pieces of a character are assembled to its octets. -/
theorem foldlM_charPieces (c : Char) (octets : List UInt8) :
    (charPieces c).foldlM Assembly.push ⟨octets, none⟩ =
      .ok ⟨(String.utf8EncodeChar c).reverse ++ octets, none⟩ := by
  unfold charPieces
  split_ifs with h
  · have hcontrol : c.toNat < 0x20 := by
      simp only [isEscapedByNumber, Bool.and_eq_true, decide_eq_true_eq] at h
      exact h.1
    have hlow : isLowSurrogate c.toNat = false := by
      simp only [isLowSurrogate, Bool.and_eq_false_iff, decide_eq_false_iff_not]
      omega
    have hhigh : isHighSurrogate c.toNat = false := by
      simp only [isHighSurrogate, Bool.and_eq_false_iff, decide_eq_false_iff_not]
      omega
    have hpush : Assembly.push ⟨octets, none⟩ (.unit c.toNat) =
        .ok ⟨(String.utf8EncodeChar c).reverse ++ octets, none⟩ := by
      simp [Assembly.push, hlow, hhigh, Assembly.pushChar, Char.ofNat_toNat]
    rw [List.foldlM_cons, hpush]
    rfl
  · exact foldlM_octets _ _

theorem foldlM_string (cs : List Char) (octets : List UInt8) :
    (cs.flatMap charPieces).foldlM Assembly.push ⟨octets, none⟩ =
      .ok ⟨(utf8Chars cs).reverse ++ octets, none⟩ := by
  induction cs generalizing octets with
  | nil => rfl
  | cons c cs ih =>
    rw [List.flatMap_cons, List.foldlM_append, foldlM_charPieces, utf8Chars_cons,
      List.reverse_append, List.append_assoc]
    exact ih _

theorem StringText.read_ofString (s : String) : (StringText.ofString s).read = .ok s := by
  rw [StringText.read, StringText.ofString, foldlM_string]
  simp only [bind, Except.bind, List.append_nil, List.reverse_reverse, Option.isSome_none,
    Bool.false_eq_true, if_false]
  rw [← utf8, ofUtf8?_utf8]

/-! ### Values -/

mutual

/-- The number of containers that stand around each other. -/
def Value.height : Value → Nat
  | .array items => heightOfItems items + 1
  | .object members => heightOfMembers members + 1
  | _ => 0

def heightOfItems : List Value → Nat
  | [] => 0
  | v :: rest => max v.height (heightOfItems rest)

def heightOfMembers : List (String × Value) → Nat
  | [] => 0
  | (_, v) :: rest => max v.height (heightOfMembers rest)

end

theorem heightOfItems_le_iff {items : List Value} {n : Nat} :
    heightOfItems items ≤ n ↔ ∀ v ∈ items, v.height ≤ n := by
  induction items with
  | nil => simp [heightOfItems]
  | cons v rest ih => rw [heightOfItems, max_le_iff, ih, List.forall_mem_cons]

theorem heightOfMembers_le_iff {members : List (String × Value)} {n : Nat} :
    heightOfMembers members ≤ n ↔ ∀ m ∈ members, m.2.height ≤ n := by
  induction members with
  | nil => simp [heightOfMembers]
  | cons m rest ih => rw [heightOfMembers, max_le_iff, ih, List.forall_mem_cons]

theorem add_one_le_iff_exists {n depth : Nat} :
    n + 1 ≤ depth ↔ ∃ inner, depth = inner + 1 ∧ n ≤ inner := by
  constructor
  · intro h
    exact ⟨depth - 1, by omega, by omega⟩
  · rintro ⟨inner, rfl, h⟩
    omega

theorem Value.height_array_le_iff {items : List Value} {depth : Nat} :
    (Value.array items).height ≤ depth ↔
      ∃ inner, depth = inner + 1 ∧ ∀ v ∈ items, v.height ≤ inner := by
  simp only [height, add_one_le_iff_exists, heightOfItems_le_iff]

theorem Value.height_object_le_iff {members : List (String × Value)} {depth : Nat} :
    (Value.object members).height ≤ depth ↔
      ∃ inner, depth = inner + 1 ∧ ∀ m ∈ members, m.2.height ≤ inner := by
  simp only [height, add_one_le_iff_exists, heightOfMembers_le_iff]

/-- A value that can be kept in full: its numbers are integers of 64 bits, and its members are in
the order of their names, no name twice. -/
inductive Value.Exact : Value → Prop
  | null : Exact .null
  | bool (b : Bool) : Exact (.bool b)
  | integer {n : Int} (h : IsJsonInteger n) : Exact (.integer n)
  | string (s : String) : Exact (.string s)
  | array {items : List Value} (h : ∀ v ∈ items, Exact v) : Exact (.array items)
  | object {members : List (String × Value)} (hsorted : members.Pairwise (·.1 < ·.1))
      (h : ∀ m ∈ members, Exact m.2) : Exact (.object members)

theorem Value.Exact.integral {v : Value} (h : v.Exact) : v.Integral := by
  induction h with
  | null => exact .null
  | bool b => exact .bool b
  | integer _ => exact .integer _
  | string s => exact .string s
  | array _ ih => exact .array ih
  | object _ _ ih => exact .object ih

/-- A member that comes last stays last. -/
theorem insertMember_of_lt {name : String} {value : Value} {kept : List (String × Value)}
    (h : ∀ e ∈ kept, e.1 < name) : insertMember name value kept = kept ++ [(name, value)] := by
  induction kept with
  | nil => rfl
  | cons e kept ih =>
    obtain ⟨hless, hkept⟩ := List.forall_mem_cons.mp h
    obtain ⟨k, v⟩ := e
    have hnot : ¬name < k := String.lt_asymm hless
    have hne : name ≠ k := fun heq => String.lt_irrefl k (heq ▸ hless)
    rw [insertMember, if_neg hnot, if_neg hne, ih hkept, List.cons_append]

theorem gather_of_sorted {members : List (String × Value)} (h : members.Pairwise (·.1 < ·.1)) :
    gather members = members := by
  induction members using List.reverseRecOn with
  | nil => rfl
  | append_singleton members m ih =>
    obtain ⟨hmembers, -, hlast⟩ := List.pairwise_append.mp h
    have hkept := ih hmembers
    rw [gather] at hkept ⊢
    rw [List.foldl_append, hkept]
    exact insertMember_of_lt fun e he => hlast e he m (List.mem_singleton_self m)

theorem Value.Exact.readValue_draft {v : Value} (h : v.Exact) {depth : Nat}
    (hdepth : v.height ≤ depth) : v.draft.readValue depth = .ok v := by
  induction h generalizing depth with
  | null => rw [draft, Draft.readValue.eq_def]
  | bool b => rw [draft, Draft.readValue.eq_def]
  | integer hn =>
    rw [Value.integer, draft, Draft.readValue.eq_def]
    simp only [NumberText.read_ofInt hn]
    rfl
  | string s =>
    rw [draft, Draft.readValue.eq_def]
    simp only [StringText.read_ofString]
    rfl
  | @array items _ ih =>
    obtain ⟨inner, rfl, hinner⟩ := height_array_le_iff.mp hdepth
    have hitems : readItems (Draft.readValue inner) (items.map draft) none = .ok items := by
      refine readItems_eq_ok_iff.mpr ⟨?_, rfl⟩
      exact List.forall₂_map_left_iff.mpr (List.forall₂_same.mpr fun v hv => ih v hv (hinner v hv))
    rw [draft, draftItems_eq_map, Draft.readValue, hitems]
    rfl
  | @object members hsorted _ ih =>
    obtain ⟨inner, rfl, hinner⟩ := height_object_le_iff.mp hdepth
    have hmembers : readMembers (Draft.readValue inner)
        (members.map fun m => (StringText.ofString m.1, m.2.draft)) none = .ok members := by
      refine readMembers_eq_ok_iff.mpr ⟨members, ?_, rfl, (gather_of_sorted hsorted).symm⟩
      exact List.forall₂_map_left_iff.mpr (List.forall₂_same.mpr fun m hm =>
        ⟨StringText.read_ofString m.1, ih m hm (hinner m hm)⟩)
    rw [draft, draftMembers_eq_map, Draft.readValue, hmembers]
    rfl

end GatewayAdmin.Json
