import GatewayAdmin.Proofs.JsonScan

/-! A text whose draft has no fault is one value of the grammar, and the other way round. A cursor
stands for the tokens it has taken up: those of the containers that are open around it and those of
the parts it has already seen. -/
namespace GatewayAdmin.Json

/-- The tokens of items that are followed by another one. -/
def earlierItemTokens (items : List Draft) : List Token :=
  items.flatMap fun d => d.tokens ++ [.comma]

def earlierMemberTokens (members : List (StringText × Draft)) : List Token :=
  members.flatMap fun m => .string m.1 :: .colon :: (m.2.tokens ++ [.comma])

theorem laterItemTokens_snoc (items : List Draft) (d : Draft) :
    laterItemTokens (items ++ [d]) = .comma :: (earlierItemTokens items ++ d.tokens) := by
  induction items with
  | nil => simp [laterItemTokens, earlierItemTokens]
  | cons e items ih =>
    simp only [List.cons_append, laterItemTokens, ih]
    simp [earlierItemTokens]

theorem itemTokens_snoc (items : List Draft) (d : Draft) :
    itemTokens (items ++ [d]) = earlierItemTokens items ++ d.tokens := by
  cases items with
  | nil => simp [itemTokens, laterItemTokens, earlierItemTokens]
  | cons e items =>
    simp only [List.cons_append, itemTokens, laterItemTokens_snoc]
    simp [earlierItemTokens]

theorem laterMemberTokens_snoc (members : List (StringText × Draft)) (k : StringText) (d : Draft) :
    laterMemberTokens (members ++ [(k, d)]) =
      .comma :: (earlierMemberTokens members ++ .string k :: .colon :: d.tokens) := by
  induction members with
  | nil => simp [laterMemberTokens, earlierMemberTokens]
  | cons m members ih =>
    simp only [List.cons_append, laterMemberTokens, ih]
    simp [earlierMemberTokens]

theorem memberTokens_snoc (members : List (StringText × Draft)) (k : StringText) (d : Draft) :
    memberTokens (members ++ [(k, d)]) =
      earlierMemberTokens members ++ .string k :: .colon :: d.tokens := by
  cases members with
  | nil => simp [memberTokens, laterMemberTokens, earlierMemberTokens]
  | cons m members =>
    simp only [List.cons_append, memberTokens, laterMemberTokens_snoc]
    simp [earlierMemberTokens]

/-- The tokens of an open container, up to the value that is to come. -/
def Frame.tokens : Frame → List Token
  | array items => .openArray :: earlierItemTokens items.reverse
  | object members k => .openObject :: (earlierMemberTokens members.reverse ++ [.string k, .colon])

def openTokens : List Frame → List Token
  | [] => []
  | f :: frames => openTokens frames ++ f.tokens

namespace Cursor

/-- The tokens that a cursor has taken up. One that met a token out of place stands for none. -/
def Holds : Cursor → List Token → Prop
  | value frames, ts => ts = openTokens frames
  | firstItem frames, ts => ts = openTokens (.array [] :: frames)
  | nextItem items frames, ts => ∃ d rest, items = d :: rest ∧
      ts = openTokens (.array rest :: frames) ++ d.tokens
  | firstKey frames, ts => ts = openTokens frames ++ [.openObject]
  | key members frames, ts =>
      ts = openTokens frames ++ .openObject :: earlierMemberTokens members.reverse
  | colon members k frames, ts => ts ++ [.colon] = openTokens (.object members k :: frames)
  | nextMember members frames, ts => ∃ k d rest, members = (k, d) :: rest ∧
      ts = openTokens (.object rest k :: frames) ++ d.tokens
  | done d clean, ts => clean = true → ts = d.tokens

theorem holds_reject (c : Cursor) (ts : List Token) : c.reject.Holds ts := by
  intro h
  simp at h

theorem holds_accept {d : Draft} {frames : List Frame} {ts : List Token}
    (h : ts = openTokens frames ++ d.tokens) : (accept d frames).Holds ts := by
  cases frames with
  | nil =>
    intro _
    simpa [openTokens] using h
  | cons f frames =>
    cases f with
    | array items => exact ⟨d, items, rfl, h⟩
    | object members k => exact ⟨k, d, members, rfl, h⟩

theorem holds_stepValue (c : Cursor) {frames : List Frame} {ts : List Token}
    (h : ts = openTokens frames) (t : Token) : (stepValue c frames t).Holds (ts ++ [t]) := by
  subst h
  cases t with
  | null | bool _ | number _ | string _ | broken _ => exact holds_accept rfl
  | openArray => rfl
  | openObject => rfl
  | closeObject | closeArray | colon | comma => exact holds_reject _ _

theorem step_firstItem {frames : List Frame} {t : Token} (ht : t ≠ .closeArray) :
    (firstItem frames).step t = stepValue (firstItem frames) (.array [] :: frames) t := by
  cases t with
  | closeArray => exact absurd rfl ht
  | _ => rfl

theorem Holds.step {c : Cursor} {ts : List Token} (h : c.Holds ts) (t : Token) :
    (c.step t).Holds (ts ++ [t]) := by
  cases c with
  | value frames => exact holds_stepValue _ h t
  | firstItem frames =>
    by_cases ht : t = .closeArray
    · subst ht
      obtain rfl := h
      refine holds_accept ?_
      simp [openTokens, Frame.tokens, Draft.tokens, earlierItemTokens, itemTokens]
    · rw [step_firstItem ht]
      exact holds_stepValue _ h t
  | nextItem items frames =>
    obtain ⟨d, rest, rfl, rfl⟩ := h
    cases t with
    | comma =>
      show _ = openTokens (.array (d :: rest) :: frames)
      simp [openTokens, Frame.tokens, earlierItemTokens]
    | closeArray =>
      refine holds_accept ?_
      simp [openTokens, Frame.tokens, Draft.tokens, itemTokens_snoc]
    | _ => exact holds_reject _ _
  | firstKey frames =>
    obtain rfl := h
    cases t with
    | closeObject =>
      refine holds_accept ?_
      simp [Draft.tokens, memberTokens]
    | string k =>
      show _ = openTokens (.object [] k :: frames)
      simp [openTokens, Frame.tokens, earlierMemberTokens]
    | _ => exact holds_reject _ _
  | key members frames =>
    obtain rfl := h
    cases t with
    | string k =>
      show _ = openTokens (.object members k :: frames)
      simp [openTokens, Frame.tokens]
    | _ => exact holds_reject _ _
  | colon members k frames =>
    cases t with
    | colon => exact h
    | _ => exact holds_reject _ _
  | nextMember members frames =>
    obtain ⟨k, d, rest, rfl, rfl⟩ := h
    cases t with
    | comma =>
      show _ = openTokens frames ++ .openObject :: earlierMemberTokens ((k, d) :: rest).reverse
      simp [openTokens, Frame.tokens, earlierMemberTokens]
    | closeObject =>
      refine holds_accept ?_
      simp [openTokens, Frame.tokens, Draft.tokens, memberTokens_snoc]
    | _ => exact holds_reject _ _
  | done d clean =>
    intro hclean
    simp at hclean

theorem holds_run (ts : List Token) : (ts.foldl Cursor.step (.value [])).Holds ts := by
  induction ts using List.reverseRecOn with
  | nil => rfl
  | append_singleton ts t ih =>
    rw [List.foldl_append]
    exact ih.step t

theorem not_sound_unwind (f : Fault) {d : Draft} (h : ¬d.Sound) (frames : List Frame) :
    ¬(unwind f d frames).Sound := by
  induction frames generalizing d with
  | nil => exact h
  | cons frame frames ih =>
    cases frame with
    | array items => exact ih nofun
    | object members k => exact ih nofun

/-- A value that is not finished has a fault. -/
theorem done_of_sound_close {c : Cursor} {f : Fault} (h : (c.close f).Sound) :
    ∃ d clean, c = done d clean := by
  cases c with
  | done d clean => exact ⟨d, clean, rfl⟩
  | value | firstItem | nextItem | firstKey | key | colon | nextMember =>
    exact absurd h (not_sound_unwind f (by nofun) _)

end Cursor

section
variable {P : Token → Prop}

theorem forall_laterItemTokens {items : List Draft} (hcomma : P .comma)
    (h : ∀ d ∈ items, ∀ t ∈ d.tokens, P t) : ∀ t ∈ laterItemTokens items, P t := by
  induction items with
  | nil => simp [laterItemTokens]
  | cons d items ih =>
    obtain ⟨hd, hitems⟩ := List.forall_mem_cons.mp h
    simp only [laterItemTokens, List.forall_mem_cons, List.forall_mem_append]
    exact ⟨hcomma, hd, ih hitems⟩

theorem forall_laterMemberTokens {members : List (StringText × Draft)} (hcomma : P .comma)
    (hcolon : P .colon) (hkeys : ∀ m ∈ members, P (.string m.1))
    (h : ∀ m ∈ members, ∀ t ∈ m.2.tokens, P t) : ∀ t ∈ laterMemberTokens members, P t := by
  induction members with
  | nil => simp [laterMemberTokens]
  | cons m members ih =>
    obtain ⟨hk, hkeys⟩ := List.forall_mem_cons.mp hkeys
    obtain ⟨hd, hvalues⟩ := List.forall_mem_cons.mp h
    simp only [laterMemberTokens, List.forall_mem_cons, List.forall_mem_append]
    exact ⟨hcomma, hk, hcolon, hd, ih hkeys hvalues⟩

end

namespace Draft

theorem Sound.not_faulty {d : Draft} (h : d.Sound) : ∀ t ∈ d.tokens, ¬t.Faulty := by
  have hstring {s : StringText} (hs : s.fault = none) : ¬(Token.string s).Faulty := by
    intro hfaulty
    cases hfaulty with
    | string _ _ => simp at hs
  induction h with
  | null | bool _ | number _ =>
    simp only [tokens, List.forall_mem_singleton]
    nofun
  | string hs =>
    simp only [tokens, List.forall_mem_singleton]
    exact hstring hs
  | @array items _ ih =>
    simp only [tokens, List.forall_mem_cons, List.forall_mem_append]
    refine ⟨nofun, ?_, nofun, nofun⟩
    cases items with
    | nil => simp [itemTokens]
    | cons d items =>
      obtain ⟨hd, hitems⟩ := List.forall_mem_cons.mp ih
      simp only [itemTokens, List.forall_mem_append]
      exact ⟨hd, forall_laterItemTokens nofun hitems⟩
  | @object members hkeys _ ih =>
    simp only [tokens, List.forall_mem_cons, List.forall_mem_append]
    refine ⟨nofun, ?_, nofun, nofun⟩
    cases members with
    | nil => simp [memberTokens]
    | cons m members =>
      obtain ⟨hk, hkeys⟩ := List.forall_mem_cons.mp hkeys
      obtain ⟨hd, hmembers⟩ := List.forall_mem_cons.mp ih
      simp only [memberTokens, List.forall_mem_cons, List.forall_mem_append]
      refine ⟨hstring hk, nofun, hd, ?_⟩
      exact forall_laterMemberTokens nofun nofun (fun m hm => hstring (hkeys m hm)) hmembers

/-- At the first item of an array a value is read as at any other. -/
theorem foldl_firstItem (d : Draft) (frames : List Frame) :
    d.tokens.foldl Cursor.step (.firstItem frames) =
      d.tokens.foldl Cursor.step (.value (.array [] :: frames)) := by
  cases d with
  | _ => rfl

theorem foldl_laterItems {items : List Draft}
    (h : ∀ d ∈ items, ∀ frames, d.tokens.foldl Cursor.step (.value frames) = .accept d frames)
    (before : List Draft) (frames : List Frame) :
    (laterItemTokens items ++ [Token.closeArray]).foldl Cursor.step (.nextItem before frames) =
      .accept (.array (before.reverse ++ items) none) frames := by
  induction items generalizing before with
  | nil => simp [laterItemTokens, Cursor.step]
  | cons d items ih =>
    obtain ⟨hd, hitems⟩ := List.forall_mem_cons.mp h
    have hcomma : Cursor.step (.nextItem before frames) .comma =
        .value (.array before :: frames) := rfl
    have hrest := ih hitems (d :: before)
    simp only [laterItemTokens, List.cons_append, List.append_assoc, List.foldl_cons, hcomma,
      List.foldl_append, hd]
    simpa [Cursor.accept] using hrest

theorem foldl_laterMembers {members : List (StringText × Draft)}
    (h : ∀ m ∈ members, ∀ frames,
      m.2.tokens.foldl Cursor.step (.value frames) = .accept m.2 frames)
    (before : List (StringText × Draft)) (frames : List Frame) :
    (laterMemberTokens members ++ [Token.closeObject]).foldl Cursor.step
        (.nextMember before frames) =
      .accept (.object (before.reverse ++ members) none) frames := by
  induction members generalizing before with
  | nil => simp [laterMemberTokens, Cursor.step]
  | cons m members ih =>
    obtain ⟨hd, hmembers⟩ := List.forall_mem_cons.mp h
    have hcomma (k : StringText) :
        ((Cursor.step (.nextMember before frames) .comma).step (.string k)).step .colon =
          .value (.object before k :: frames) := rfl
    have hrest := ih hmembers (m :: before)
    simp only [laterMemberTokens, List.cons_append, List.append_assoc, List.foldl_cons, hcomma,
      List.foldl_append, hd]
    simpa [Cursor.accept] using hrest

/-- The tokens of a value make it, whatever is open around it. -/
theorem Sound.foldl_tokens {d : Draft} (h : d.Sound) (frames : List Frame) :
    d.tokens.foldl Cursor.step (.value frames) = .accept d frames := by
  induction h generalizing frames with
  | null | bool _ | number _ | string _ => rfl
  | @array items _ ih =>
    have hopen : Cursor.step (.value frames) .openArray = .firstItem frames := rfl
    cases items with
    | nil => rfl
    | cons d items =>
      obtain ⟨hd, hitems⟩ := List.forall_mem_cons.mp ih
      have hrest := foldl_laterItems hitems [d] frames
      simp only [tokens, itemTokens, List.append_assoc, List.foldl_cons, hopen, List.foldl_append,
        foldl_firstItem, hd]
      simpa [Cursor.accept] using hrest
  | @object members _ _ ih =>
    cases members with
    | nil => rfl
    | cons m members =>
      obtain ⟨hd, hmembers⟩ := List.forall_mem_cons.mp ih
      have hopen (k : StringText) :
          ((Cursor.step (.value frames) .openObject).step (.string k)).step .colon =
            .value (.object [] k :: frames) := rfl
      have hrest := foldl_laterMembers hmembers [m] frames
      simp only [tokens, memberTokens, List.cons_append, List.append_assoc, List.foldl_cons, hopen,
        List.foldl_append, hd]
      simpa [Cursor.accept] using hrest

end Draft

/-- Reading a text finds a value without fault exactly when the text spells it. -/
theorem document_eq_iff {d : Draft} {text : List UInt8} :
    (document text = ⟨d, true⟩ ∧ d.Sound) ↔ Spells d text := by
  constructor
  · rintro ⟨h, hd⟩
    obtain ⟨hclose, hclean⟩ := Document.mk.inj h
    have hholds := Cursor.holds_run (tokens text).list
    -- An unfinished value would have left its fault in the draft.
    rw [← hclose] at hd
    obtain ⟨d', clean, hdone⟩ := Cursor.done_of_sound_close hd
    rw [hdone] at hclose hclean hholds hd
    obtain rfl : d' = d := hclose
    have htokens := hholds hclean
    have hlexed := lexed_tokens (htokens ▸ hd.not_faulty)
    exact ⟨hd, htokens ▸ hlexed⟩
  · rintro ⟨hd, hlexed⟩
    have hseparated : Separated (d.tokens ++ []) := d.separated_tokens .nil nofun
    rw [List.append_nil] at hseparated
    refine ⟨?_, hd⟩
    simp only [document, hlexed.tokens_eq hseparated, hd.foldl_tokens]
    rfl

/-- The grammar is unambiguous. -/
theorem Spells.unique {d d' : Draft} {text : List UInt8} (h : Spells d text)
    (h' : Spells d' text) : d = d' := by
  obtain ⟨hdoc, -⟩ := document_eq_iff.mpr h
  obtain ⟨hdoc', -⟩ := document_eq_iff.mpr h'
  exact (Document.mk.inj (hdoc.symm.trans hdoc')).1

end GatewayAdmin.Json
