import GatewayAdmin.Proofs.JsonRead
import GatewayAdmin.Proofs.RecordCodec

/-! Objects of one record that differ in the order of their members, or in members that the record
does not have. Such a member is passed over, and fields that keep out of each other's way are read
to the same record in any order. -/
namespace GatewayAdmin

open Json

/-- The value of a field that may be absent. -/
def Codec.readOptional {α : Type} (c : Codec α) (depth : Nat) (d : Draft) : Read (Option α) :=
  match d with
  | .null => .ok none
  | d => some <$> c.read depth d

theorem Codec.readOptional_eq_ok_iff {α : Type} {c : Codec α} {depth : Nat} {d : Draft}
    {v : Option α} : c.readOptional depth d = .ok v ↔
      d = .null ∧ v = none ∨ d ≠ .null ∧ ∃ a, c.read depth d = .ok a ∧ v = some a := by
  have hread (d' : Draft) : some <$> c.read depth d' = .ok v ↔
      ∃ a, c.read depth d' = .ok a ∧ v = some a := by
    rw [map_eq_ok_iff]
    simp only [eq_comm]
  cases d with
  | null => simp [readOptional, eq_comm]
  | _ => simpa [readOptional] using hread _

variable {ρ : Type}

namespace Field

/-- Reading one field and then the other comes to the same as the other way round. -/
def Commutes (f g : Field ρ) : Prop :=
  ∀ depth d d' r r₂, (∃ r₁, f.read depth d r = .ok r₁ ∧ g.read depth d' r₁ = .ok r₂) ↔
    ∃ r₁, g.read depth d' r = .ok r₁ ∧ f.read depth d r₁ = .ok r₂

theorem Commutes.symm {f g : Field ρ} (h : f.Commutes g) : g.Commutes f :=
  fun depth d d' r r₂ => (h depth d' d r r₂).symm

instance : Std.Symm (@Commutes ρ) := ⟨fun _ _ h => h.symm⟩

variable {α β : Type} {name name' : String} {codec : Codec α} {codec' : Codec β}
  {get : ρ → Option α} {get' : ρ → Option β} {set : ρ → Option α → ρ} {set' : ρ → Option β → ρ}

theorem read_optional_eq_ok_iff {depth : Nat} {d : Draft} {r r' : ρ} :
    (optional name codec get set).read depth d r = .ok r' ↔
      ∃ v, codec.readOptional depth d = .ok v ∧ r' = set r v := by
  by_cases hd : d = .null
  · subst hd
    simp [optional, Codec.readOptional, eq_comm]
  · rw [read_optional hd]
    simp only [bind_eq_ok_iff, Codec.readOptional_eq_ok_iff, hd, false_and, ne_eq,
      not_false_eq_true, true_and, false_or]
    constructor
    · rintro ⟨a, ha, h⟩
      exact ⟨some a, ⟨a, ha, rfl⟩, (Except.ok.inj h).symm⟩
    · rintro ⟨v, ⟨a, ha, rfl⟩, rfl⟩
      exact ⟨a, ha, rfl⟩

/-- Two fields whose updates of the record do not meet. -/
theorem commutes_optional (h : ∀ r v w, set' (set r v) w = set (set' r w) v) :
    (optional name codec get set).Commutes (optional name' codec' get' set') := by
  intro depth d d' r r₂
  simp only [read_optional_eq_ok_iff]
  constructor
  · rintro ⟨_, ⟨v, hv, rfl⟩, w, hw, rfl⟩
    exact ⟨_, ⟨w, hw, rfl⟩, v, hv, h r v w⟩
  · rintro ⟨_, ⟨w, hw, rfl⟩, v, hv, rfl⟩
    exact ⟨_, ⟨v, hv, rfl⟩, w, hw, (h r v w).symm⟩

end Field

namespace Schema

/-- The members of the record may stand in any order. -/
structure Orderless (s : Schema ρ) : Prop where
  distinct : s.Distinct
  commutes : s.fields.Pairwise Field.Commutes

/-- What has been read is the same, and so is what must not come again. -/
structure Progress.Same (p q : Progress ρ) : Prop where
  record : p.record = q.record
  seen : ∀ name, name ∈ p.seen ↔ name ∈ q.seen

theorem Progress.same_refl (p : Progress ρ) : p.Same p := ⟨rfl, fun _ => Iff.rfl⟩

theorem Progress.Same.trans {p q t : Progress ρ} (h : p.Same q) (h' : q.Same t) : p.Same t :=
  ⟨h.record.trans h'.record, fun name => (h.seen name).trans (h'.seen name)⟩

section
variable {s : Schema ρ} {depth : Nat} {p p' q : Progress ρ} {m : StringText × Draft}
  {members members' : List (StringText × Draft)}

theorem field?_eq_some_iff {name : String} {f : Field ρ} (hs : s.Distinct) :
    s.field? name = some f ↔ f ∈ s.fields ∧ f.name = name := by
  constructor
  · intro h
    exact ⟨List.mem_of_find?_eq_some h, by simpa using List.find?_some h⟩
  · rintro ⟨hf, rfl⟩
    exact field?_eq_some hs hf

/-- The two ways in which a member is read: it is passed over, or it is the value of a field that
was not given before. -/
theorem readMember_eq_ok_iff : s.readMember depth p m = .ok q ↔ ∃ name, m.1.read = .ok name ∧
    (s.field? name = none ∧ q = p ∨
      ∃ f r, s.field? name = some f ∧ name ∉ p.seen ∧ f.read depth m.2 p.record = .ok r ∧
        q = ⟨r, name :: p.seen⟩) := by
  simp only [readMember, bind_eq_ok_iff]
  refine exists_congr fun name => and_congr_right fun _ => ?_
  cases hf : s.field? name with
  | none => simp [eq_comm]
  | some f =>
    by_cases hseen : name ∈ p.seen
    · simp [hseen]
    · simp only [List.contains_eq_mem, hseen, decide_false, Bool.false_eq_true, if_false,
        bind_eq_ok_iff, reduceCtorEq, false_and, Option.some.injEq, exists_and_left,
        exists_eq_left', not_false_eq_true, true_and, false_or]
      refine exists_congr fun r => and_congr_right fun _ => ?_
      simp [pure, Except.pure, eq_comm]

theorem Progress.Same.readMember (h : p.Same p') (hq : s.readMember depth p m = .ok q) :
    ∃ q', s.readMember depth p' m = .ok q' ∧ q.Same q' := by
  simp only [readMember_eq_ok_iff] at hq ⊢
  obtain ⟨name, hname, ⟨hnone, rfl⟩ | ⟨f, r, hf, hnew, hr, rfl⟩⟩ := hq
  · exact ⟨p', ⟨name, hname, .inl ⟨hnone, rfl⟩⟩, h⟩
  · have hnew' : name ∉ p'.seen := fun hmem => hnew ((h.seen name).mpr hmem)
    have hsame : Progress.Same ⟨r, name :: p.seen⟩ ⟨r, name :: p'.seen⟩ :=
      ⟨rfl, fun other => by simp only [List.mem_cons, h.seen other]⟩
    exact ⟨_, ⟨name, hname, .inr ⟨f, r, hf, hnew', h.record ▸ hr, rfl⟩⟩, hsame⟩

/-- Two members that stand next to each other may change places. -/
theorem readMember_swap (hs : s.Orderless) {m m' : StringText × Draft}
    (hq : s.readMember depth p m = .ok q) {t : Progress ρ}
    (ht : s.readMember depth q m' = .ok t) :
    ∃ q' t', s.readMember depth p m' = .ok q' ∧ s.readMember depth q' m = .ok t' ∧ t.Same t' := by
  simp only [readMember_eq_ok_iff] at hq ht ⊢
  obtain ⟨name, hname, ⟨hnone, rfl⟩ | ⟨f, r, hf, hnew, hr, rfl⟩⟩ := hq
  · exact ⟨t, t, ht, ⟨name, hname, .inl ⟨hnone, rfl⟩⟩, t.same_refl⟩
  obtain ⟨name', hname', ⟨hnone', rfl⟩ | ⟨g, r', hg, hnew', hr', rfl⟩⟩ := ht
  · exact ⟨p, _, ⟨name', hname', .inl ⟨hnone', rfl⟩⟩,
      ⟨name, hname, .inr ⟨f, r, hf, hnew, hr, rfl⟩⟩, Progress.same_refl _⟩
  -- Both are fields, and not the same one, for it would be given twice.
  simp only [List.mem_cons, not_or] at hnew'
  obtain ⟨hne, hnew'⟩ := hnew'
  obtain ⟨hfm, rfl⟩ := (field?_eq_some_iff hs.distinct).mp hf
  obtain ⟨hgm, rfl⟩ := (field?_eq_some_iff hs.distinct).mp hg
  have hcommutes : f.Commutes g :=
    hs.commutes.forall hfm hgm fun h => hne (h ▸ rfl)
  obtain ⟨r₁, hr₁, hr₂⟩ := (hcommutes depth m.2 m'.2 p.record r').mp ⟨r, hr, hr'⟩
  have hnew₂ : f.name ∉ g.name :: p.seen := by
    simp only [List.mem_cons, not_or]
    exact ⟨Ne.symm hne, hnew⟩
  refine ⟨⟨r₁, g.name :: p.seen⟩, ⟨r', f.name :: g.name :: p.seen⟩,
    ⟨_, hname', .inr ⟨g, r₁, hg, hnew', hr₁, rfl⟩⟩, ⟨_, hname, .inr ⟨f, r', hf, hnew₂, hr₂, rfl⟩⟩,
    rfl, fun other => ?_⟩
  simp only [List.mem_cons]
  tauto

theorem Progress.Same.foldlM (h : p.Same p')
    (hq : members.foldlM (s.readMember depth) p = .ok q) :
    ∃ q', members.foldlM (s.readMember depth) p' = .ok q' ∧ q.Same q' := by
  induction members generalizing p p' with
  | nil =>
    obtain rfl := Except.ok.inj hq
    exact ⟨p', rfl, h⟩
  | cons m members ih =>
    obtain ⟨q₁, hq₁, hrest⟩ := bind_eq_ok_iff.mp hq
    obtain ⟨q₁', hq₁', hsame⟩ := h.readMember hq₁
    obtain ⟨q', hq', hsame'⟩ := ih hsame hrest
    exact ⟨q', bind_eq_ok_iff.mpr ⟨q₁', hq₁', hq'⟩, hsame'⟩

theorem foldlM_perm (hs : s.Orderless) (hperm : members.Perm members') (h : p.Same p')
    (hq : members.foldlM (s.readMember depth) p = .ok q) :
    ∃ q', members'.foldlM (s.readMember depth) p' = .ok q' ∧ q.Same q' := by
  induction hperm generalizing p p' q with
  | nil =>
    obtain rfl := Except.ok.inj hq
    exact ⟨p', rfl, h⟩
  | cons m _ ih =>
    obtain ⟨q₁, hq₁, hrest⟩ := bind_eq_ok_iff.mp hq
    obtain ⟨q₁', hq₁', hsame⟩ := h.readMember hq₁
    obtain ⟨q', hq', hsame'⟩ := ih hsame hrest
    exact ⟨q', bind_eq_ok_iff.mpr ⟨q₁', hq₁', hq'⟩, hsame'⟩
  | swap m m' members =>
    obtain ⟨q₁, hq₁, hq⟩ := bind_eq_ok_iff.mp hq
    obtain ⟨q₂, hq₂, hrest⟩ := bind_eq_ok_iff.mp hq
    obtain ⟨t₁, t₂, ht₁, ht₂, hsame⟩ := readMember_swap hs hq₁ hq₂
    obtain ⟨t₁', ht₁', hsame₁⟩ := h.readMember ht₁
    obtain ⟨t₂', ht₂', hsame₂⟩ := hsame₁.readMember ht₂
    obtain ⟨q', hq', hsame'⟩ := (hsame.trans hsame₂).foldlM hrest
    exact ⟨q', bind_eq_ok_iff.mpr ⟨t₁', ht₁', bind_eq_ok_iff.mpr ⟨t₂', ht₂', hq'⟩⟩, hsame'⟩
  | trans _ _ ih₁ ih₂ =>
    obtain ⟨q₁, hq₁, hsame₁⟩ := ih₁ h hq
    obtain ⟨q₂, hq₂, hsame₂⟩ := ih₂ p'.same_refl hq₁
    exact ⟨q₂, hq₂, hsame₁.trans hsame₂⟩

/-- One member in the place of another that does the same. -/
theorem foldlM_replace {before after : List (StringText × Draft)} {m m' : StringText × Draft}
    (hm : ∀ p q, s.readMember depth p m = .ok q → s.readMember depth p m' = .ok q)
    (hq : (before ++ m :: after).foldlM (s.readMember depth) p = .ok q) :
    (before ++ m' :: after).foldlM (s.readMember depth) p = .ok q := by
  rw [List.foldlM_append] at hq ⊢
  obtain ⟨p₁, hbefore, hq⟩ := bind_eq_ok_iff.mp hq
  obtain ⟨p₂, hp₂, hafter⟩ := bind_eq_ok_iff.mp hq
  exact bind_eq_ok_iff.mpr ⟨p₁, hbefore, bind_eq_ok_iff.mpr ⟨p₂, hm p₁ p₂ hp₂, hafter⟩⟩

/-- A member of another name than those of the fields is passed over. -/
theorem foldlM_insert {before after : List (StringText × Draft)} {name : String}
    (hname : m.1.read = .ok name) (hnew : s.field? name = none)
    (hq : (before ++ after).foldlM (s.readMember depth) p = .ok q) :
    (before ++ m :: after).foldlM (s.readMember depth) p = .ok q := by
  rw [List.foldlM_append] at hq ⊢
  obtain ⟨p₁, hbefore, hafter⟩ := bind_eq_ok_iff.mp hq
  have hm : s.readMember depth p₁ m = .ok p₁ :=
    readMember_eq_ok_iff.mpr ⟨name, hname, .inl ⟨hnew, rfl⟩⟩
  exact bind_eq_ok_iff.mpr ⟨p₁, hbefore, bind_eq_ok_iff.mpr ⟨p₁, hm, hafter⟩⟩

theorem read_object_eq_ok_iff {x : ρ} : s.read depth (.object members none) = .ok x ↔
    ∃ inner seen, depth = inner + 1 ∧
      members.foldlM (s.readMember inner) ⟨s.blank, []⟩ = .ok ⟨x, seen⟩ := by
  cases depth with
  | zero => simp [read]
  | succ inner =>
    simp only [read, readObject, endOf, bind_eq_ok_iff, Nat.add_right_cancel_iff, exists_and_left,
      exists_eq_left']
    constructor
    · rintro ⟨p, hp, -, -, h⟩
      obtain rfl := Except.ok.inj h
      exact ⟨p.seen, hp⟩
    · rintro ⟨seen, hp⟩
      exact ⟨_, hp, trivial, (), rfl⟩

theorem read_object_perm (hs : s.Orderless) {x : ρ} (hperm : members.Perm members')
    (hx : s.read depth (.object members none) = .ok x) :
    s.read depth (.object members' none) = .ok x := by
  obtain ⟨inner, seen, rfl, hp⟩ := read_object_eq_ok_iff.mp hx
  obtain ⟨q, hq, hsame⟩ := foldlM_perm hs hperm (Progress.same_refl _) hp
  obtain rfl : x = q.record := hsame.record
  exact read_object_eq_ok_iff.mpr ⟨inner, q.seen, rfl, hq⟩

theorem read_object_insert {before after : List (StringText × Draft)} {name : String} {x : ρ}
    (hname : m.1.read = .ok name) (hnew : s.field? name = none)
    (hx : s.read depth (.object (before ++ after) none) = .ok x) :
    s.read depth (.object (before ++ m :: after) none) = .ok x := by
  obtain ⟨inner, seen, rfl, hp⟩ := read_object_eq_ok_iff.mp hx
  exact read_object_eq_ok_iff.mpr ⟨inner, seen, rfl, foldlM_insert hname hnew hp⟩

/-- Another text of the value of one field. -/
theorem read_object_replace {before after : List (StringText × Draft)} {key : StringText}
    {name : String} {f : Field ρ} {d d' : Draft} {x : ρ} (hkey : key.read = .ok name)
    (hf : s.field? name = some f)
    (hread : ∀ depth r r', f.read depth d r = .ok r' → f.read depth d' r = .ok r')
    (hx : s.read depth (.object (before ++ (key, d) :: after) none) = .ok x) :
    s.read depth (.object (before ++ (key, d') :: after) none) = .ok x := by
  obtain ⟨inner, seen, rfl, hp⟩ := read_object_eq_ok_iff.mp hx
  refine read_object_eq_ok_iff.mpr ⟨inner, seen, rfl, foldlM_replace (fun p q hq => ?_) hp⟩
  obtain ⟨name', hname', hq⟩ := readMember_eq_ok_iff.mp hq
  obtain rfl := Except.ok.inj (hkey.symm.trans hname')
  refine readMember_eq_ok_iff.mpr ⟨name, hkey, hq.imp_right ?_⟩
  rintro ⟨g, r, hg, hnew, hr, rfl⟩
  obtain rfl := Option.some.inj (hf.symm.trans hg)
  exact ⟨f, r, hf, hnew, hread _ _ _ hr, rfl⟩

end

/-- Another text of the value in one position. -/
theorem readPositions_replace {depth : Nat} {f : Field ρ} {d d' : Draft}
    (hread : ∀ r r', f.read depth d r = .ok r' → f.read depth d' r = .ok r')
    {earlier later : List (Field ρ)} {before after : List Draft} {r x : ρ}
    (hlength : before.length = earlier.length)
    (hx : readPositions depth none (earlier ++ f :: later) (before ++ d :: after) r = .ok x) :
    readPositions depth none (earlier ++ f :: later) (before ++ d' :: after) r = .ok x := by
  induction before generalizing earlier r with
  | nil =>
    obtain rfl := List.eq_nil_of_length_eq_zero hlength.symm
    obtain ⟨r₁, hr₁, hrest⟩ := bind_eq_ok_iff.mp hx
    exact bind_eq_ok_iff.mpr ⟨r₁, hread _ _ hr₁, hrest⟩
  | cons b before ih =>
    cases earlier with
    | nil => simp at hlength
    | cons g earlier =>
      obtain ⟨r₁, hr₁, hrest⟩ := bind_eq_ok_iff.mp hx
      exact bind_eq_ok_iff.mpr ⟨r₁, hr₁, ih (by simpa using hlength) hrest⟩

end Schema

/-! ### What every record that is read has -/

/-- Whatever is read to this depth has this property. -/
def Codec.EnsuresAt {α : Type} (c : Codec α) (depth : Nat) (P : α → Prop) : Prop :=
  ∀ d x, c.read depth d = .ok x → P x

/-- Whatever is read has this property. -/
def Codec.Ensures {α : Type} (c : Codec α) (P : α → Prop) : Prop :=
  ∀ depth d x, c.read depth d = .ok x → P x

theorem Codec.ensures_true {α : Type} (c : Codec α) : c.Ensures fun _ => True :=
  fun _ _ _ _ => trivial

theorem Codec.EnsuresAt.list {α : Type} {item : Codec α} {depth : Nat} {P : α → Prop}
    (h : item.EnsuresAt depth P) :
    (Codec.list item).EnsuresAt (depth + 1) fun xs => ∀ x ∈ xs, P x := by
  intro d xs hxs x hx
  cases d with
  | array items fault =>
    obtain ⟨hitems, -⟩ := readItems_eq_ok_iff.mp hxs
    obtain ⟨d, -, hd⟩ := exists_right_of_mem hitems.flip hx
    exact h d x hd
  | _ => simp [Codec.list, Codec.readList] at hxs

theorem Codec.Ensures.list {α : Type} {item : Codec α} {P : α → Prop} (h : item.Ensures P) :
    (Codec.list item).Ensures fun xs => ∀ x ∈ xs, P x := by
  intro depth d xs hxs
  cases depth with
  | zero => cases d <;> simp [Codec.list, Codec.readList] at hxs
  | succ depth => exact EnsuresAt.list (h depth) d xs hxs

/-- Reading the field to this depth keeps a property of the record. -/
def Field.PreservesAt (f : Field ρ) (depth : Nat) (P : ρ → Prop) : Prop :=
  ∀ d r r', f.read depth d r = .ok r' → P r → P r'

/-- Reading the field keeps a property of the record. -/
def Field.Preserves (f : Field ρ) (P : ρ → Prop) : Prop :=
  ∀ depth d r r', f.read depth d r = .ok r' → P r → P r'

section
variable {α : Type} {name : String} {codec : Codec α} {get : ρ → Option α}
  {set : ρ → Option α → ρ} {P : ρ → Prop} {Q : α → Prop}

theorem Field.preservesAt_optional {depth : Nat} (hcodec : codec.EnsuresAt depth Q)
    (hset : ∀ r v, P r → (∀ a ∈ v, Q a) → P (set r v)) :
    (optional name codec get set).PreservesAt depth P := by
  intro d r r' hread hr
  obtain ⟨v, hv, rfl⟩ := read_optional_eq_ok_iff.mp hread
  refine hset r v hr fun a ha => ?_
  rcases Codec.readOptional_eq_ok_iff.mp hv with ⟨-, rfl⟩ | ⟨-, b, hb, rfl⟩
  · simp at ha
  · obtain rfl := Option.some.inj ha
    exact hcodec d b hb

theorem Field.preserves_optional (hcodec : codec.Ensures Q)
    (hset : ∀ r v, P r → (∀ a ∈ v, Q a) → P (set r v)) :
    (optional name codec get set).Preserves P :=
  fun depth => preservesAt_optional (hcodec depth) hset

/-- A field that the property does not depend on. -/
theorem Field.preservesAt_of_set {depth : Nat} (h : ∀ r v, P r → P (set r v)) :
    (optional name codec get set).PreservesAt depth P :=
  preservesAt_optional (codec.ensures_true depth) fun r v hr _ => h r v hr

theorem Field.preserves_of_set (h : ∀ r v, P r → P (set r v)) :
    (optional name codec get set).Preserves P :=
  fun _ => preservesAt_of_set h

end

theorem Schema.record_foldlM {s : Schema ρ} {P : ρ → Prop} {depth : Nat}
    (hfields : ∀ f ∈ s.fields, f.PreservesAt depth P) {members : List (StringText × Draft)}
    {p q : Progress ρ} (hq : members.foldlM (s.readMember depth) p = .ok q) (hp : P p.record) :
    P q.record := by
  induction members generalizing p with
  | nil =>
    obtain rfl := Except.ok.inj hq
    exact hp
  | cons m members ih =>
    obtain ⟨p', hp', hrest⟩ := bind_eq_ok_iff.mp hq
    refine ih hrest ?_
    obtain ⟨name, -, ⟨-, rfl⟩ | ⟨f, r, hf, -, hr, rfl⟩⟩ := readMember_eq_ok_iff.mp hp'
    · exact hp
    · exact hfields f (List.mem_of_find?_eq_some hf) m.2 p.record r hr hp

theorem Schema.record_readPositions {P : ρ → Prop} {fields : List (Field ρ)} {depth : Nat}
    (hfields : ∀ f ∈ fields, f.PreservesAt depth P) {fault : Option Fault}
    {items : List Draft} {r x : ρ} (hx : readPositions depth fault fields items r = .ok x)
    (hr : P r) : P x := by
  induction items generalizing fields r with
  | nil =>
    obtain ⟨-, -, h⟩ := bind_eq_ok_iff.mp (readPositions.eq_1 depth fault fields r ▸ hx)
    obtain rfl := Except.ok.inj h
    exact hr
  | cons d items ih =>
    cases fields with
    | nil => simp [readPositions] at hx
    | cons f fields =>
      obtain ⟨hf, hfields⟩ := List.forall_mem_cons.mp hfields
      obtain ⟨r', hr', hrest⟩ := bind_eq_ok_iff.mp hx
      exact ih hfields hrest (hf d r r' hr' hr)

/-- From the blank record every field that is read leads to one that has the property too. -/
theorem Schema.ensuresAt {s : Schema ρ} {depth : Nat} {P : ρ → Prop} (hblank : P s.blank)
    (hfields : ∀ f ∈ s.fields, f.PreservesAt depth P) : s.codec.EnsuresAt (depth + 1) P := by
  intro d x hx
  cases d with
  | object members fault =>
    obtain ⟨p, hp, h⟩ := bind_eq_ok_iff.mp hx
    obtain ⟨-, -, h⟩ := bind_eq_ok_iff.mp h
    obtain rfl := Except.ok.inj h
    exact record_foldlM hfields hp hblank
  | array items fault => exact record_readPositions hfields hx hblank
  | _ => simp [codec, read] at hx

theorem Schema.ensures {s : Schema ρ} {P : ρ → Prop} (hblank : P s.blank)
    (hfields : ∀ f ∈ s.fields, f.Preserves P) : s.codec.Ensures P := by
  intro depth d x hx
  cases depth with
  | zero => cases d <;> simp [codec, read] at hx
  | succ depth => exact ensuresAt hblank (fun f hf => hfields f hf depth) d x hx

end GatewayAdmin
