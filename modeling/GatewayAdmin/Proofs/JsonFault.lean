import GatewayAdmin.Proofs.JsonParse

/-! Where the fault of a text is found. A scan stops at the first faulty token, and what is open
there keeps the fault on its outside. So a text is one value of the grammar as soon as its draft has
no fault on the outside, whatever stands within. -/
namespace GatewayAdmin.Json

/-! ### Tokens -/

theorem Token.not_faulty_number (n : NumberText) : ¬(Token.number n).Faulty := nofun

theorem Token.Spelled.not_faulty {t : Token} {word : List UInt8} (h : t.Spelled word) :
    ¬t.Faulty := by
  cases h with
  | _ => nofun

theorem Lexed.not_faulty {ts : List Token} {text : List UInt8} (h : Lexed ts text) :
    ∀ t ∈ ts, ¬t.Faulty := by
  induction h with
  | nil => simp
  | space _ _ ih => exact ih
  | token ht _ ih => exact List.forall_mem_cons.mpr ⟨ht.not_faulty, ih⟩

namespace Scan

/-- Nothing was found behind a faulty token. The newest token comes first. -/
def Tidy (s : Scan) : Prop := ∀ t ∈ s.tokens.tail, ¬t.Faulty

/-- At most one token more was found. -/
def Adds (s s' : Scan) : Prop := s'.tokens = s.tokens ∨ ∃ t, s'.tokens = t :: s.tokens

variable {s s' : Scan}

theorem Adds.tidy (h : s.Adds s') (hs : ∀ t ∈ s.tokens, ¬t.Faulty) : s'.Tidy := by
  intro t ht
  rcases h with h | ⟨t', h⟩
  · rw [h] at ht
    exact hs t (List.mem_of_mem_tail ht)
  · rw [h] at ht
    exact hs t ht

theorem adds_push (s : Scan) (t : Token) : s.Adds (s.push t) := .inr ⟨t, rfl⟩

theorem adds_enter (s : Scan) (place : Place) : s.Adds (s.enter place) := .inl rfl

theorem adds_stop (s : Scan) (f : Fault) : s.Adds (s.stop f) := .inr ⟨.broken f, rfl⟩

theorem adds_stopString (s : Scan) (pieces : List StringPiece) (f : Fault) :
    s.Adds (s.stopString pieces f) := .inr ⟨.string ⟨pieces.reverse, some f⟩, rfl⟩

theorem adds_ite {c : Prop} [Decidable c] {s₁ s₂ : Scan} (h₁ : s.Adds s₁) (h₂ : s.Adds s₂) :
    s.Adds (if c then s₁ else s₂) := by
  split
  · exact h₁
  · exact h₂

theorem adds_begin (s : Scan) (b : UInt8) : s.Adds (s.begin b) := by
  unfold begin
  apply adds_ite (s.adds_enter _)
  -- the signs
  iterate 6 apply adds_ite (s.adds_push _)
  -- the first octet of a string, of a word and of a negative number
  iterate 5 apply adds_ite (s.adds_enter _)
  split
  · exact s.adds_enter _
  · exact s.adds_enter _
  · exact s.adds_stop _

theorem adds_stepHex (s : Scan) (pieces : List StringPiece) (digits : List UInt8) :
    s.Adds (s.stepHex pieces digits) := by
  unfold stepHex
  apply adds_ite (s.adds_enter _)
  split
  · exact s.adds_enter _
  · exact s.adds_stopString _ _

/-- As long as the scan goes on, the tokens before are in the grammar. -/
theorem Tidy.step (h : s.Tidy) {text : List UInt8} (hreads : s.Reads text) (b : UInt8) :
    (s.step b).Tidy := by
  obtain ⟨tokens, place⟩ := s
  rcases hreads with ⟨-, f, hf⟩ | ⟨before, word, rfl, hl, hp⟩
  · obtain rfl := hf
    exact h
  have hs : ∀ t ∈ tokens, ¬t.Faulty := fun t ht => hl.not_faulty t (List.mem_reverse.mpr ht)
  cases place with
  | stopped f => exact hp.elim
  | between => exact (adds_begin _ b).tidy hs
  | word rest token =>
    obtain ⟨hne, -⟩ := hp
    cases rest with
    | nil => exact absurd rfl hne
    | cons c rest =>
      exact (adds_ite (adds_stop _ _) (adds_ite (adds_push _ _) (adds_enter _ _))).tidy hs
  | number p =>
    simp only [Scan.step]
    cases p.step b with
    | next q => exact (adds_enter _ _).tidy hs
    | «over» n =>
      -- the number is complete before the next token is begun
      apply (adds_begin _ b).tidy
      exact List.forall_mem_cons.mpr ⟨Token.not_faulty_number n, hs⟩
    | bad => exact (adds_stop _ _).tidy hs
  | string pieces =>
    have hplain := adds_ite (c := b < 0x20)
      (adds_stopString ⟨tokens, .string pieces⟩ pieces .malformed)
      (adds_enter _ (.string (.octet b :: pieces)))
    exact (adds_ite (adds_push _ _) (adds_ite (adds_enter _ _) hplain)).tidy hs
  | escape pieces =>
    simp only [Scan.step]
    cases escaped? b with
    | none => exact (adds_ite (adds_enter _ _) (adds_stopString _ _ _)).tidy hs
    | some e => exact (adds_ite (adds_enter _ _) (adds_enter _ _)).tidy hs
  | hex pieces digits => exact (adds_stepHex _ pieces (b :: digits)).tidy hs

theorem tidy_run (text : List UInt8) : (text.foldl Scan.step start).Tidy := by
  induction text using List.reverseRecOn with
  | nil => simp [start, Tidy]
  | append_singleton text b ih =>
    rw [List.foldl_append]
    exact ih.step (reads_run text) b

theorem Tidy.finish (h : s.Tidy) {text : List UInt8} (hreads : s.Reads text) : s.finish.Tidy := by
  obtain ⟨tokens, place⟩ := s
  rcases hreads with ⟨-, f, hf⟩ | ⟨before, word, rfl, hl, hp⟩
  · obtain rfl := hf
    exact h
  have hs : ∀ t ∈ tokens, ¬t.Faulty := fun t ht => hl.not_faulty t (List.mem_reverse.mpr ht)
  cases place with
  | stopped f => exact hp.elim
  | between => exact (adds_enter _ _).tidy hs
  | word rest token => exact (adds_stop _ _).tidy hs
  | number p =>
    simp only [Scan.finish]
    cases p.finish? with
    | none => exact hs
    | some n => exact hs
  | string pieces | escape pieces | hex pieces _ => exact (adds_stopString _ pieces _).tidy hs

end Scan

/-- Of the tokens of a text only the last one can be faulty. -/
theorem not_faulty_of_tokens_eq {text : List UInt8} {ts : List Token} {t : Token}
    (h : (tokens text).list = ts ++ [t]) : ∀ u ∈ ts, ¬u.Faulty := by
  have htidy := (Scan.tidy_run text).finish (Scan.reads_run text)
  have hlist : (text.foldl Scan.step Scan.start).finish.tokens = t :: ts.reverse := by
    rw [tokens] at h
    simpa using congrArg List.reverse h
  intro u hu
  exact htidy u (by simpa [hlist] using hu)

/-! ### Drafts -/

/-- The fault on the outside of a draft. -/
def Draft.fault? : Draft → Option Fault
  | null | bool _ | number _ => none
  | string s => s.fault
  | array _ fault | object _ fault => fault
  | broken f => some f

def SoundMembers (members : List (StringText × Draft)) : Prop :=
  ∀ m ∈ members, m.1.fault = none ∧ m.2.Sound

/-- What is finished within an open container is sound. -/
def Frame.Sound : Frame → Prop
  | array items => ∀ d ∈ items, d.Sound
  | object members k => SoundMembers members ∧ k.fault = none

namespace Cursor

/-- What is finished is sound. -/
def Sound : Cursor → Prop
  | value frames | firstItem frames | firstKey frames => ∀ f ∈ frames, f.Sound
  | nextItem items frames => (∀ d ∈ items, d.Sound) ∧ ∀ f ∈ frames, f.Sound
  | key members frames | nextMember members frames =>
    SoundMembers members ∧ ∀ f ∈ frames, f.Sound
  | colon members k frames => (SoundMembers members ∧ k.fault = none) ∧ ∀ f ∈ frames, f.Sound
  | done d clean => clean = true → d.Sound

theorem sound_reject (c : Cursor) : c.reject.Sound := nofun

theorem sound_accept {d : Draft} {frames : List Frame} (hd : d.Sound)
    (h : ∀ f ∈ frames, f.Sound) : (accept d frames).Sound := by
  cases frames with
  | nil => exact fun _ => hd
  | cons frame frames =>
    obtain ⟨hframe, hframes⟩ := List.forall_mem_cons.mp h
    cases frame with
    | array items => exact ⟨List.forall_mem_cons.mpr ⟨hd, hframe⟩, hframes⟩
    | object members k =>
      obtain ⟨hmembers, hk⟩ := hframe
      exact ⟨List.forall_mem_cons.mpr ⟨⟨hk, hd⟩, hmembers⟩, hframes⟩

theorem fault_eq_none {k : StringText} (h : ¬(Token.string k).Faulty) : k.fault = none := by
  obtain ⟨pieces, fault⟩ := k
  cases fault with
  | none => rfl
  | some f => exact absurd (.string pieces f) h

theorem sound_stepValue (c : Cursor) {frames : List Frame} (h : ∀ f ∈ frames, f.Sound)
    {t : Token} (ht : ¬t.Faulty) : (stepValue c frames t).Sound := by
  cases t with
  | null => exact sound_accept .null h
  | bool b => exact sound_accept (.bool b) h
  | number n => exact sound_accept (.number n) h
  | string s => exact sound_accept (.string (fault_eq_none ht)) h
  | broken f => exact absurd (.broken f) ht
  | openArray => exact h
  | openObject => exact h
  | closeObject | closeArray | colon | comma => exact sound_reject c

theorem SoundMembers.object {members : List (StringText × Draft)} (h : SoundMembers members) :
    (Draft.object members.reverse none).Sound := by
  apply Draft.Sound.object
  · exact fun m hm => (h m (List.mem_reverse.mp hm)).1
  · exact fun m hm => (h m (List.mem_reverse.mp hm)).2

theorem Sound.step {c : Cursor} (h : c.Sound) {t : Token} (ht : ¬t.Faulty) : (c.step t).Sound := by
  cases c with
  | value frames => exact sound_stepValue _ h ht
  | firstItem frames =>
    by_cases hclose : t = .closeArray
    · subst hclose
      exact sound_accept (.array (by simp)) h
    · rw [step_firstItem hclose]
      exact sound_stepValue _ (List.forall_mem_cons.mpr ⟨by simp [Frame.Sound], h⟩) ht
  | nextItem items frames =>
    obtain ⟨hitems, hframes⟩ := h
    cases t with
    | comma => exact List.forall_mem_cons.mpr ⟨hitems, hframes⟩
    | closeArray => exact sound_accept (.array (by simpa using hitems)) hframes
    | _ => exact sound_reject _
  | firstKey frames =>
    cases t with
    | closeObject => exact sound_accept (.object (by simp) (by simp)) h
    | string k => exact ⟨⟨nofun, fault_eq_none ht⟩, h⟩
    | _ => exact sound_reject _
  | key members frames =>
    cases t with
    | string k => exact ⟨⟨h.1, fault_eq_none ht⟩, h.2⟩
    | _ => exact sound_reject _
  | colon members k frames =>
    cases t with
    | colon => exact List.forall_mem_cons.mpr h
    | _ => exact sound_reject _
  | nextMember members frames =>
    cases t with
    | comma => exact h
    | closeObject => exact sound_accept (SoundMembers.object h.1) h.2
    | _ => exact sound_reject _
  | done d clean => exact fun hclean => absurd hclean Bool.false_ne_true

theorem sound_run {ts : List Token} (h : ∀ t ∈ ts, ¬t.Faulty) :
    (ts.foldl Cursor.step (.value [])).Sound := by
  induction ts using List.reverseRecOn with
  | nil => simp [Sound]
  | append_singleton ts t ih =>
    obtain ⟨hts, ht⟩ := List.forall_mem_append.mp h
    rw [List.foldl_append]
    exact (ih hts).step (ht t (List.mem_singleton_self t))

theorem fault_unwind (f : Fault) {d : Draft} (h : d.fault? ≠ none) (frames : List Frame) :
    (unwind f d frames).fault? ≠ none := by
  induction frames generalizing d with
  | nil => exact h
  | cons frame frames ih =>
    cases frame with
    | array items => exact ih (Option.some_ne_none f)
    | object members k => exact ih (Option.some_ne_none f)

/-- What is not finished has a fault on the outside. -/
theorem done_of_close {c : Cursor} {f : Fault} (h : (c.close f).fault? = none) :
    ∃ d clean, c = done d clean := by
  cases c with
  | done d clean => exact ⟨d, clean, rfl⟩
  | value | firstItem | nextItem | firstKey | key | colon | nextMember =>
    exact absurd h (fault_unwind f (by exact Option.some_ne_none f) _)

theorem eq_of_accept {d d' : Draft} {frames : List Frame} {clean : Bool}
    (h : accept d' frames = done d clean) : d = d' := by
  cases frames with
  | nil => exact (Cursor.done.inj h).1.symm
  | cons frame frames =>
    cases frame with
    | array items => cases h
    | object members k => cases h

theorem fault_of_stepValue {t : Token} (ht : t.Faulty) {c : Cursor} {frames : List Frame}
    {d : Draft} {clean : Bool} (h : stepValue c frames t = done d clean) : d.fault? ≠ none := by
  cases ht with
  | broken f =>
    rw [eq_of_accept h]
    exact Option.some_ne_none f
  | string pieces f =>
    rw [eq_of_accept h]
    exact Option.some_ne_none f

/-- A value that is finished by a faulty token is that token. -/
theorem fault_of_step {t : Token} (ht : t.Faulty) {c : Cursor} {d : Draft}
    (h : c.step t = done d true) : d.fault? ≠ none := by
  cases c with
  | value frames => exact fault_of_stepValue ht h
  | firstItem frames =>
    rw [step_firstItem (by rintro rfl; cases ht)] at h
    exact fault_of_stepValue ht h
  | nextItem | colon | nextMember | firstKey | key =>
    cases ht with
    | broken f => cases h
    | string pieces f => cases h
  | done d' clean => cases h

end Cursor

/-- A text whose draft has no fault on the outside is one value of the grammar. -/
theorem spells_of_document {d : Draft} {text : List UInt8} (h : document text = ⟨d, true⟩)
    (hd : d.fault? = none) : Spells d text := by
  apply document_eq_iff.mp
  refine ⟨h, ?_⟩
  obtain ⟨hclose, hclean⟩ := Document.mk.inj h
  rw [← hclose] at hd
  obtain ⟨d', clean, hdone⟩ := Cursor.done_of_close hd
  rw [hdone] at hclose hclean hd
  obtain rfl : clean = true := hclean
  obtain rfl : d' = d := hclose
  rcases List.eq_nil_or_concat (tokens text).list with hnil | ⟨ts, t, hlast⟩
  · rw [hnil] at hdone
    cases hdone
  · rw [List.concat_eq_append] at hlast
    have hsound := Cursor.sound_run (not_faulty_of_tokens_eq hlast)
    rw [hlast, List.foldl_append] at hdone
    have ht : ¬t.Faulty := fun ht => Cursor.fault_of_step ht hdone hd
    have hstep := hsound.step ht
    rw [List.foldl_cons, List.foldl_nil] at hdone
    rw [hdone] at hstep
    exact hstep rfl

end GatewayAdmin.Json
