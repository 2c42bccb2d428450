import GatewayAdmin.Proofs.JsonNumberText
import GatewayAdmin.Proofs.Outcome

/-! The texts that values are written as. Whatever its numbers, the compact text of a value and its
indented texts are all one draft: indentation is white space between the tokens and nothing else. -/
namespace GatewayAdmin.Json

open Text

/-- Every text of the value spells this draft, the indented ones at any depth. -/
structure Value.WrittenAs (v : Value) (d : Draft) : Prop where
  sound : d.Sound
  compact : Lexed d.tokens (utf8Chars v.compactChars)
  pretty : ∀ depth, Lexed d.tokens (utf8Chars (v.prettyChars depth))

/-- A member is written as its name and its value are. -/
inductive MemberWrittenAs : String × Value → StringText × Draft → Prop
  | intro (k : String) {v : Value} {d : Draft} (h : v.WrittenAs d) :
      MemberWrittenAs (k, v) (.ofString k, d)

theorem lexed_word {t : Token} {word : List UInt8} (h : t.Spelled word) : Lexed [t] word := by
  simpa using Lexed.token h .nil

theorem lexed_spaces (n : Nat) : Lexed [] (utf8Chars (List.replicate n ' ')) := by
  induction n with
  | zero => exact .nil
  | succ n ih =>
    rw [List.replicate_succ, utf8Chars_cons]
    exact .space rfl ih

theorem lexed_lineBreak (depth : Nat) : Lexed [] (utf8Chars (Value.lineBreak depth)) := by
  rw [Value.lineBreak, utf8Chars_cons]
  exact .space rfl (lexed_spaces _)

theorem Lexed.lineBreak {ts : List Token} {text : List UInt8} (depth : Nat) (h : Lexed ts text) :
    Lexed ts (utf8Chars (Value.lineBreak depth) ++ text) :=
  (lexed_lineBreak depth).append h

/-- A bracket that closes behind a line break. -/
theorem lexed_close {t : Token} {c : Char} (ht : t.Spelled (utf8Chars [c])) (depth : Nat) :
    Lexed [t] (utf8Chars (Value.lineBreak depth ++ [c])) := by
  rw [utf8Chars_append]
  exact Lexed.lineBreak depth (lexed_word ht)

section
variable {items : List Value} {ds : List Draft} {members : List (String × Value)}
  {es : List (StringText × Draft)}

theorem lexed_compactRest (h : List.Forall₂ Value.WrittenAs items ds) :
    Lexed (laterItemTokens ds) (utf8Chars (Value.compactRest items)) := by
  induction h with
  | nil => exact .nil
  | cons hv _ ih =>
    rw [laterItemTokens, Value.compactRest, utf8Chars_cons, utf8Chars_append]
    exact .token .comma (hv.compact.append ih)

theorem lexed_compactItems (h : List.Forall₂ Value.WrittenAs items ds) :
    Lexed (itemTokens ds) (utf8Chars (Value.compactItems items)) := by
  cases h with
  | nil => exact .nil
  | cons hv hrest =>
    rw [itemTokens, Value.compactItems, utf8Chars_append]
    exact hv.compact.append (lexed_compactRest hrest)

theorem lexed_prettyRest (h : List.Forall₂ Value.WrittenAs items ds) (depth : Nat) :
    Lexed (laterItemTokens ds) (utf8Chars (Value.prettyRest depth items)) := by
  induction h with
  | nil => exact .nil
  | cons hv _ ih =>
    rw [laterItemTokens, Value.prettyRest, utf8Chars_cons, utf8Chars_append, utf8Chars_append]
    exact .token .comma (((hv.pretty depth).lineBreak depth).append ih)

theorem lexed_compactMember (k : String) {v : Value} {d : Draft} (h : v.WrittenAs d) :
    Lexed (.string (.ofString k) :: .colon :: d.tokens)
      (utf8Chars (Value.stringChars k ++ ':' :: v.compactChars)) := by
  rw [utf8Chars_append, utf8Chars_cons]
  exact .token (spelled_string k) (.token .colon h.compact)

/-- A member behind a line break, with a space behind the colon. -/
theorem lexed_prettyMember (k : String) {v : Value} {d : Draft} (h : v.WrittenAs d) (depth : Nat) :
    Lexed (.string (.ofString k) :: .colon :: d.tokens)
      (utf8Chars (Value.lineBreak depth ++ Value.stringChars k ++
        ':' :: ' ' :: v.prettyChars depth)) := by
  have hvalue : Lexed (.colon :: d.tokens) (utf8Chars (':' :: ' ' :: v.prettyChars depth)) := by
    rw [utf8Chars_cons, utf8Chars_cons]
    exact .token .colon (.space rfl (h.pretty depth))
  rw [List.append_assoc, utf8Chars_append, utf8Chars_append]
  exact Lexed.lineBreak depth (.token (spelled_string k) hvalue)

theorem lexed_compactMembersRest (h : List.Forall₂ MemberWrittenAs members es) :
    Lexed (laterMemberTokens es) (utf8Chars (Value.compactMembersRest members)) := by
  induction h with
  | nil => exact .nil
  | cons hm _ ih =>
    obtain ⟨k, hv⟩ := hm
    rw [laterMemberTokens, Value.compactMembersRest, utf8Chars_cons]
    refine .token .comma ?_
    simpa [utf8Chars_append, utf8Chars_cons] using (lexed_compactMember k hv).append ih

theorem lexed_compactMembers (h : List.Forall₂ MemberWrittenAs members es) :
    Lexed (memberTokens es) (utf8Chars (Value.compactMembers members)) := by
  cases h with
  | nil => exact .nil
  | cons hm hrest =>
    obtain ⟨k, hv⟩ := hm
    rw [memberTokens, Value.compactMembers]
    simpa [utf8Chars_append, utf8Chars_cons] using
      (lexed_compactMember k hv).append (lexed_compactMembersRest hrest)

theorem lexed_prettyMembersRest (h : List.Forall₂ MemberWrittenAs members es) (depth : Nat) :
    Lexed (laterMemberTokens es) (utf8Chars (Value.prettyMembersRest depth members)) := by
  induction h with
  | nil => exact .nil
  | cons hm _ ih =>
    obtain ⟨k, hv⟩ := hm
    rw [laterMemberTokens, Value.prettyMembersRest, utf8Chars_cons, utf8Chars_append]
    exact .token .comma ((lexed_prettyMember k hv depth).append ih)

end

namespace Value

/-- A value of one token is written the same way in every text. -/
theorem WrittenAs.ofToken {v : Value} {d : Draft} {t : Token} (hsound : d.Sound)
    (htokens : d.tokens = [t]) (hpretty : ∀ depth, v.prettyChars depth = v.compactChars)
    (ht : t.Spelled (utf8Chars v.compactChars)) : v.WrittenAs d := by
  have hword : Lexed d.tokens (utf8Chars v.compactChars) := htokens ▸ lexed_word ht
  exact ⟨hsound, hword, fun depth => (hpretty depth).symm ▸ hword⟩

theorem writtenAs_null : null.WrittenAs .null := .ofToken .null rfl (fun _ => rfl) .null

theorem writtenAs_bool (b : Bool) : (bool b).WrittenAs (.bool b) := by
  refine .ofToken (.bool b) rfl (fun _ => rfl) ?_
  cases b with
  | false => exact .boolFalse
  | true => exact .boolTrue

theorem writtenAs_number {n : Number} {t : NumberText} (h : t.Spelled (utf8Chars (numberChars n))) :
    (number n).WrittenAs (.number t) :=
  .ofToken (.number t) rfl (fun _ => rfl) (.number h)

theorem writtenAs_string (s : String) : (string s).WrittenAs (.string (.ofString s)) :=
  .ofToken (.string rfl) rfl (fun _ => rfl) (spelled_string s)

theorem WrittenAs.array {items : List Value} {ds : List Draft}
    (h : List.Forall₂ WrittenAs items ds) : (array items).WrittenAs (.array ds none) := by
  have hsound : ∀ d ∈ ds, d.Sound := by
    intro d hd
    obtain ⟨v, -, hv⟩ := exists_right_of_mem h.flip hd
    exact hv.sound
  refine ⟨.array hsound, ?_, fun depth => ?_⟩
  · rw [Draft.tokens, compactChars, utf8Chars_cons, utf8Chars_append]
    exact .token .openArray ((lexed_compactItems h).append (lexed_word .closeArray))
  · cases h with
    | nil => exact .token .openArray (lexed_word .closeArray)
    | cons hv hrest =>
      have hfirst := (hv.pretty (depth + 1)).lineBreak (depth + 1)
      have hitems := hfirst.append (lexed_prettyRest hrest (depth + 1))
      rw [Draft.tokens, itemTokens, prettyChars, utf8Chars_cons]
      refine .token .openArray ?_
      simpa [utf8Chars_append] using hitems.append (lexed_close .closeArray depth)

theorem WrittenAs.object {members : List (String × Value)} {es : List (StringText × Draft)}
    (h : List.Forall₂ MemberWrittenAs members es) :
    (object members).WrittenAs (.object es none) := by
  have hsound : (Draft.object es none).Sound := by
    constructor
    · intro e he
      obtain ⟨_, -, k, -⟩ := exists_right_of_mem h.flip he
      rfl
    · intro e he
      obtain ⟨_, -, _, hv⟩ := exists_right_of_mem h.flip he
      exact hv.sound
  refine ⟨hsound, ?_, fun depth => ?_⟩
  · rw [Draft.tokens, compactChars, utf8Chars_cons, utf8Chars_append]
    exact .token .openObject ((lexed_compactMembers h).append (lexed_word .closeObject))
  · cases h with
    | nil => exact .token .openObject (lexed_word .closeObject)
    | cons hm hrest =>
      obtain ⟨k, hv⟩ := hm
      have hfirst := lexed_prettyMember k hv (depth + 1)
      have hmembers := hfirst.append (lexed_prettyMembersRest hrest (depth + 1))
      rw [Draft.tokens, memberTokens, prettyChars, utf8Chars_cons]
      refine .token .openObject ?_
      simpa [utf8Chars_append, utf8Chars_cons] using
        hmembers.append (lexed_close .closeObject depth)

mutual

/-- Every value is written as some draft, floating-point numbers included. -/
theorem exists_writtenAs (v : Value) : ∃ d, v.WrittenAs d := by
  cases v with
  | null => exact ⟨_, writtenAs_null⟩
  | bool b => exact ⟨_, writtenAs_bool b⟩
  | number n =>
    cases n with
    | integer n => exact ⟨_, writtenAs_number (NumberText.spelled_ofInt n)⟩
    | float bits =>
      obtain ⟨t, ht⟩ := Shortest.isNumberText_text bits
      exact ⟨_, writtenAs_number ht⟩
  | string s => exact ⟨_, writtenAs_string s⟩
  | array items =>
    obtain ⟨ds, hds⟩ := exists_itemsWrittenAs items
    exact ⟨_, .array hds⟩
  | object members =>
    obtain ⟨es, hes⟩ := exists_membersWrittenAs members
    exact ⟨_, .object hes⟩

theorem exists_itemsWrittenAs (items : List Value) :
    ∃ ds, List.Forall₂ WrittenAs items ds := by
  cases items with
  | nil => exact ⟨[], .nil⟩
  | cons v rest =>
    obtain ⟨d, hd⟩ := exists_writtenAs v
    obtain ⟨ds, hds⟩ := exists_itemsWrittenAs rest
    exact ⟨d :: ds, .cons hd hds⟩

theorem exists_membersWrittenAs (members : List (String × Value)) :
    ∃ es, List.Forall₂ MemberWrittenAs members es := by
  cases members with
  | nil => exact ⟨[], .nil⟩
  | cons m rest =>
    obtain ⟨k, v⟩ := m
    obtain ⟨d, hd⟩ := exists_writtenAs v
    obtain ⟨es, hes⟩ := exists_membersWrittenAs rest
    exact ⟨(.ofString k, d) :: es, .cons (.intro k hd) hes⟩

end

/-- Where all numbers are integers the draft is known. -/
theorem Integral.writtenAs {v : Value} (h : v.Integral) : v.WrittenAs v.draft := by
  induction h with
  | null => exact writtenAs_null
  | bool b => exact writtenAs_bool b
  | integer n => exact writtenAs_number (NumberText.spelled_ofInt n)
  | string s => exact writtenAs_string s
  | @array items _ ih =>
    rw [draft, draftItems_eq_map]
    exact .array (List.forall₂_map_right_iff.mpr (List.forall₂_same.mpr ih))
  | @object members _ ih =>
    rw [draft, draftMembers_eq_map]
    exact .object
      (List.forall₂_map_right_iff.mpr (List.forall₂_same.mpr fun m hm => .intro m.1 (ih m hm)))

variable {v : Value} {d : Draft}

theorem WrittenAs.spells_compact (h : v.WrittenAs d) : Spells d (utf8 v.compact) := by
  refine ⟨h.sound, ?_⟩
  rw [utf8, Value.compact, String.toList_ofList]
  exact h.compact

theorem WrittenAs.spells_pretty (h : v.WrittenAs d) : Spells d (utf8 v.pretty) := by
  refine ⟨h.sound, ?_⟩
  rw [utf8, Value.pretty, String.toList_ofList]
  exact h.pretty 0

theorem Integral.spells_compact (h : v.Integral) : Spells v.draft (utf8 v.compact) :=
  h.writtenAs.spells_compact

end Value

/-- A line break at the end belongs to no token. -/
theorem Spells.newline {d : Draft} {s : String} (h : Spells d (utf8 s)) :
    Spells d (utf8 (s ++ "\n")) := by
  refine ⟨h.sound, ?_⟩
  rw [utf8, String.toList_append, utf8Chars_append]
  exact h.lexed.snoc_space rfl

end GatewayAdmin.Json
