import GatewayAdmin.Bucket
import GatewayAdmin.Proofs.JsonLayout
import GatewayAdmin.Proofs.JsonReadBack
import GatewayAdmin.Proofs.TimestampReading

/-! Records that are read as they were written. Each codec restores its values; a record is restored
field by field, from the blank one to the one that was written. -/
namespace GatewayAdmin

open Json

namespace Codec

variable {α : Type}

/-- What is written for `x` holds no numbers but integers, and is read as `y` to any depth that it
needs. -/
structure ReadsAs (c : Codec α) (x y : α) : Prop where
  integral : (c.write x).Integral
  read : ∀ depth, (c.write x).height ≤ depth → c.read depth (c.write x).draft = .ok y

/-- What is written for `x` is read as `x`. -/
abbrev Restores (c : Codec α) (x : α) : Prop := c.ReadsAs x x

/-- No value is written like one that is absent. -/
def NeverNull (c : Codec α) : Prop := ∀ x, c.write x ≠ .null

/-- Any text of what is written for `x` will do. -/
theorem ReadsAs.decode_of_spells {c : Codec α} {x y : α} (h : c.ReadsAs x y)
    (hdepth : (c.write x).height ≤ maxDepth) {text : List UInt8}
    (htext : Spells (c.write x).draft text) : c.decode text = .ok y := by
  obtain ⟨hdocument, -⟩ := document_eq_iff.mpr htext
  exact readText_eq_ok_iff.mpr ⟨_, hdocument, h.read maxDepth hdepth⟩

theorem ReadsAs.decode {c : Codec α} {x y : α} (h : c.ReadsAs x y)
    (hdepth : (c.write x).height ≤ maxDepth) : c.decode (Text.utf8 (c.encode x)) = .ok y :=
  h.decode_of_spells hdepth h.integral.spells_compact

@[simp] theorem restores_text (s : String) : text.Restores s :=
  ⟨.string s, fun _ _ => StringText.read_ofString s⟩

@[simp] theorem restores_flag (b : Bool) : flag.Restores b :=
  ⟨.bool b, fun _ _ => rfl⟩

@[simp] theorem restores_int32 (n : Int32) : int32.Restores n := by
  have hlow := n.le_toInt
  have hhigh := n.toInt_lt
  have hread : (Draft.number (.ofInt n.toInt)).readInteger (-2147483648) 2147483647 =
      .ok n.toInt := readInteger_ofInt ⟨by omega, by omega⟩ (by omega) (by omega)
  refine ⟨.integer _, fun _ _ => ?_⟩
  change (Draft.number (.ofInt n.toInt)).readInteger _ _ >>= _ = _
  rw [hread]
  exact congrArg Except.ok (Int32.ofInt_toInt n)

@[simp] theorem restores_int64 (n : Int64) : int64.Restores n := by
  have hlow := n.le_toInt
  have hhigh := n.toInt_lt
  have hread : (Draft.number (.ofInt n.toInt)).readInteger (-9223372036854775808)
      9223372036854775807 = .ok n.toInt :=
    readInteger_ofInt ⟨by omega, by omega⟩ (by omega) (by omega)
  refine ⟨.integer _, fun _ _ => ?_⟩
  change (Draft.number (.ofInt n.toInt)).readInteger _ _ >>= _ = _
  rw [hread]
  exact congrArg Except.ok (Int64.ofInt_toInt n)

@[simp] theorem restores_uint64 (n : UInt64) : uint64.Restores n := by
  have hhigh := n.toNat_lt
  have hread : (Draft.number (.ofInt n.toNat)).readInteger 0 18446744073709551615 =
      .ok n.toNat := readInteger_ofInt ⟨by omega, by omega⟩ (by omega) (by omega)
  refine ⟨.integer _, fun _ _ => ?_⟩
  change (Draft.number (.ofInt n.toNat)).readInteger _ _ >>= _ = _
  rw [hread]
  exact congrArg Except.ok UInt64.ofNat_toNat

/-- An instant is read as the one that is shown. -/
theorem readsAs_instant (t : Instant) : instant.ReadsAs t t.shown := by
  refine ⟨.string _, fun _ _ => ?_⟩
  change ((StringText.ofString t.rfc3339).read >>= _) = _
  rw [StringText.read_ofString]
  simp [bind, Except.bind, Timestamp.read?_rfc3339]

theorem restores_free {v : Value} (h : v.Exact) : free.Restores v :=
  ⟨h.integral, fun _ hdepth => h.readValue_draft hdepth⟩

theorem readsAs_list {item : Codec α} {xs : List α} {f : α → α}
    (h : ∀ x ∈ xs, item.ReadsAs x (f x)) : (list item).ReadsAs xs (xs.map f) := by
  refine ⟨.array (List.forall_mem_map.mpr fun x hx => (h x hx).integral), fun depth hdepth => ?_⟩
  obtain ⟨inner, rfl, hinner⟩ := Value.height_array_le_iff.mp hdepth
  rw [List.forall_mem_map] at hinner
  have hitems : readItems (item.read inner) ((xs.map item.write).map Value.draft) none =
      .ok (xs.map f) := by
    refine readItems_eq_ok_iff.mpr ⟨?_, rfl⟩
    rw [List.map_map]
    exact List.forall₂_map_left_iff.mpr (List.forall₂_map_right_iff.mpr
      (List.forall₂_same.mpr fun x hx => (h x hx).read inner (hinner x hx)))
  change readList item (inner + 1) (.array (draftItems (xs.map item.write)) none) = _
  rw [draftItems_eq_map, readList, hitems]

theorem restores_list {item : Codec α} {xs : List α} (h : ∀ x ∈ xs, item.Restores x) :
    (list item).Restores xs := by
  simpa using readsAs_list (f := id) h

@[simp] theorem neverNull_text : text.NeverNull := nofun

@[simp] theorem neverNull_flag : flag.NeverNull := nofun

@[simp] theorem neverNull_int32 : int32.NeverNull := nofun

@[simp] theorem neverNull_int64 : int64.NeverNull := nofun

@[simp] theorem neverNull_uint64 : uint64.NeverNull := nofun

@[simp] theorem neverNull_instant : instant.NeverNull := by simp [NeverNull, instant]

@[simp] theorem neverNull_list (item : Codec α) : (list item).NeverNull := nofun

@[simp] theorem neverNull_schema (s : Schema α) : s.codec.NeverNull := nofun

end Codec

section
variable {ρ : Type}

/-- Reading the members that are written for these fields of `x` turns `r` into `y`. -/
inductive Refills (x y : ρ) : List (Field ρ) → ρ → Prop
  | nil {r : ρ} (h : r = y) : Refills x y [] r
  | readAs {α : Type} {name : String} {codec : Codec α} {get : ρ → Option α}
      {set : ρ → Option α → ρ} {fields : List (Field ρ)} {r : ρ} {f : α → α}
      (hcodec : ∀ a ∈ get x, codec.ReadsAs a (f a)) (hnull : codec.NeverNull)
      (hnone : set r none = r) (h : Refills x y fields (set r ((get x).map f))) :
      Refills x y (.optional name codec get set :: fields) r
  | required {α : Type} {name : String} {codec : Codec α} {get : ρ → α} {set : ρ → α → ρ}
      {fields : List (Field ρ)} {r : ρ} (hcodec : codec.Restores (get x))
      (h : Refills x y fields (set r (get x))) :
      Refills x y (.required name codec get set :: fields) r
  | unwritten {f : Field ρ} {fields : List (Field ρ)} {r : ρ} (h : Refills x y fields r) :
      Refills x y (f.unwritten :: fields) r

/-- A field whose value is read as it was. -/
theorem Refills.optional {α : Type} {x y r : ρ} {name : String} {codec : Codec α}
    {get : ρ → Option α} {set : ρ → Option α → ρ} {fields : List (Field ρ)}
    (hcodec : ∀ a ∈ get x, codec.Restores a) (hnull : codec.NeverNull) (hnone : set r none = r)
    (h : Refills x y fields (set r (get x))) :
    Refills x y (.optional name codec get set :: fields) r := by
  refine .readAs (f := id) hcodec hnull hnone ?_
  rwa [Option.map_id]

/-- The members that are written for these fields. -/
def writtenMembers (fields : List (Field ρ)) (x : ρ) : List (String × Value) :=
  fields.filterMap fun f => (f.write x).map (f.name, ·)

theorem writtenMembers_cons_none {f : Field ρ} {fields : List (Field ρ)} {x : ρ}
    (h : f.write x = none) : writtenMembers (f :: fields) x = writtenMembers fields x := by
  simp [writtenMembers, h]

theorem writtenMembers_cons_some {f : Field ρ} {fields : List (Field ρ)} {x : ρ} {v : Value}
    (h : f.write x = some v) :
    writtenMembers (f :: fields) x = (f.name, v) :: writtenMembers fields x := by
  simp [writtenMembers, h]

theorem Refills.integral {x y r : ρ} {fields : List (Field ρ)} (h : Refills x y fields r) :
    ∀ m ∈ writtenMembers fields x, m.2.Integral := by
  induction h with
  | nil _ => exact nofun
  | @readAs α name codec get set fields r f hcodec _ _ _ ih =>
    cases hget : get x with
    | none => rwa [writtenMembers_cons_none (by simp [Field.optional, hget])]
    | some a =>
      rw [writtenMembers_cons_some (v := codec.write a) (by simp [Field.optional, hget])]
      exact List.forall_mem_cons.mpr ⟨(hcodec a hget).integral, ih⟩
  | required hcodec _ ih =>
    rw [writtenMembers_cons_some rfl]
    exact List.forall_mem_cons.mpr ⟨hcodec.integral, ih⟩
  | unwritten _ ih => rwa [writtenMembers_cons_none rfl]

theorem draft_ne_null {v : Value} (h : v ≠ .null) : v.draft ≠ .null := by
  cases v with
  | null => exact absurd rfl h
  | number n => cases n <;> nofun
  | _ => nofun

theorem Field.read_optional {α : Type} {name : String} {codec : Codec α} {get : ρ → Option α}
    {set : ρ → Option α → ρ} {depth : Nat} {d : Draft} {r : ρ} (hd : d ≠ .null) :
    (Field.optional name codec get set).read depth d r =
      (do return set r (some (← codec.read depth d))) := by
  cases d with
  | null => exact absurd rfl hd
  | _ => rfl

namespace Schema

variable {s : Schema ρ} {x y : ρ}

/-- Names tell the fields of a record apart. -/
def Distinct (s : Schema ρ) : Prop := (s.fields.map Field.name).Nodup

instance (s : Schema ρ) : Decidable s.Distinct := inferInstanceAs (Decidable (List.Nodup _))

theorem find?_name {fields : List (Field ρ)} (hfields : (fields.map Field.name).Nodup)
    {f : Field ρ} (hf : f ∈ fields) : fields.find? (·.name = f.name) = some f := by
  induction fields with
  | nil => simp at hf
  | cons g fields ih =>
    obtain ⟨hg, hfields⟩ := List.nodup_cons.mp hfields
    rcases List.mem_cons.mp hf with rfl | hf
    · simp
    · have hne : g.name ≠ f.name := fun h => hg (h ▸ List.mem_map_of_mem hf)
      simp [hne, ih hfields hf]

theorem field?_eq_some (hs : s.Distinct) {f : Field ρ} (hf : f ∈ s.fields) :
    s.field? f.name = some f := find?_name hs hf

/-- The names of later fields are not among those that were read. -/
theorem not_mem_seen {f : Field ρ} {fields : List (Field ρ)} {seen : List String}
    (hf : f.name ∉ fields.map Field.name) (hseen : ∀ g ∈ fields, g.name ∉ seen) :
    ∀ g ∈ fields, g.name ∉ f.name :: seen := by
  intro g hg hmem
  rcases List.mem_cons.mp hmem with heq | hmem
  · exact hf (heq ▸ List.mem_map_of_mem hg)
  · exact hseen g hg hmem

/-- One member of the field that comes next. -/
theorem foldlM_cons_written {f : Field ρ} {fields : List (Field ρ)} {depth : Nat} {r r' : ρ}
    {seen : List String} {v : Value} {result : Read (Progress ρ)}
    (hf : s.field? f.name = some f) (hseen : f.name ∉ seen) (hwrite : f.write x = some v)
    (hread : f.read depth v.draft r = .ok r')
    (hrest : (draftMembers (writtenMembers fields x)).foldlM (s.readMember depth)
      ⟨r', f.name :: seen⟩ = result) :
    (draftMembers (writtenMembers (f :: fields) x)).foldlM (s.readMember depth) ⟨r, seen⟩ =
      result := by
  have hstep : s.readMember depth ⟨r, seen⟩ (.ofString f.name, v.draft) =
      .ok ⟨r', f.name :: seen⟩ := by
    simp [readMember, StringText.read_ofString, hf, hseen, hread, bind, Except.bind, pure,
      Except.pure]
  rw [writtenMembers_cons_some hwrite, draftMembers, List.foldlM_cons, hstep]
  exact hrest

theorem foldlM_writtenMembers {fields : List (Field ρ)} {r : ρ} (h : Refills x y fields r)
    (hfields : ∀ f ∈ fields, s.field? f.name = some f) (hdistinct : (fields.map Field.name).Nodup)
    {depth : Nat} (hdepth : ∀ m ∈ writtenMembers fields x, m.2.height ≤ depth)
    (seen : List String) (hseen : ∀ f ∈ fields, f.name ∉ seen) :
    ∃ seen', (draftMembers (writtenMembers fields x)).foldlM (s.readMember depth) ⟨r, seen⟩ =
      .ok ⟨y, seen'⟩ := by
  induction h generalizing seen with
  | nil h => exact ⟨seen, by rw [h]; rfl⟩
  | @readAs α name codec get set fields r f hcodec hnull hnone _ ih =>
    obtain ⟨hfield, hfields⟩ := List.forall_mem_cons.mp hfields
    obtain ⟨hname, hdistinct⟩ := List.nodup_cons.mp hdistinct
    obtain ⟨hnew, hseen⟩ := List.forall_mem_cons.mp hseen
    cases hget : get x with
    | none =>
      rw [writtenMembers_cons_none (by simp [Field.optional, hget])] at hdepth ⊢
      rw [hget, Option.map_none, hnone] at ih
      exact ih hfields hdistinct hdepth seen hseen
    | some a =>
      have hwrite : (Field.optional name codec get set).write x = some (codec.write a) := by
        simp [Field.optional, hget]
      rw [writtenMembers_cons_some hwrite, List.forall_mem_cons] at hdepth
      have hread : (Field.optional name codec get set).read depth (codec.write a).draft r =
          .ok (set r ((get x).map f)) := by
        rw [Field.read_optional (draft_ne_null (hnull a)),
          (hcodec a hget).read depth hdepth.1, hget]
        rfl
      obtain ⟨seen', hrest⟩ := ih hfields hdistinct hdepth.2 (name :: seen)
        (not_mem_seen hname hseen)
      exact ⟨seen', foldlM_cons_written hfield hnew hwrite hread hrest⟩
  | @required α name codec get set fields r hcodec _ ih =>
    obtain ⟨hfield, hfields⟩ := List.forall_mem_cons.mp hfields
    obtain ⟨hname, hdistinct⟩ := List.nodup_cons.mp hdistinct
    obtain ⟨hnew, hseen⟩ := List.forall_mem_cons.mp hseen
    have hwrite : (Field.required name codec get set).write x = some (codec.write (get x)) := rfl
    rw [writtenMembers_cons_some hwrite, List.forall_mem_cons] at hdepth
    have hread : (Field.required name codec get set).read depth (codec.write (get x)).draft r =
        .ok (set r (get x)) := by
      change (do return set r (← codec.read depth (codec.write (get x)).draft)) = _
      rw [hcodec.read depth hdepth.1]
      rfl
    obtain ⟨seen', hrest⟩ := ih hfields hdistinct hdepth.2 (name :: seen)
      (not_mem_seen hname hseen)
    exact ⟨seen', foldlM_cons_written hfield hnew hwrite hread hrest⟩
  | @unwritten f fields r _ ih =>
    rw [writtenMembers_cons_none rfl] at hdepth ⊢
    exact ih (List.forall_mem_cons.mp hfields).2 (List.nodup_cons.mp hdistinct).2 hdepth seen
      (List.forall_mem_cons.mp hseen).2

/-- A record whose fields are told apart is read as what its written members make of the blank
record. -/
theorem readsAs (hs : s.Distinct) (h : Refills x y s.fields s.blank) : s.codec.ReadsAs x y := by
  refine ⟨.object h.integral, fun depth hdepth => ?_⟩
  obtain ⟨inner, rfl, hinner⟩ := Value.height_object_le_iff.mp hdepth
  obtain ⟨seen, hmembers⟩ := foldlM_writtenMembers h (fun f hf => field?_eq_some hs hf) hs hinner []
    fun _ _ => List.not_mem_nil
  change s.readObject inner (draftMembers (writtenMembers s.fields x)) none = _
  rw [readObject, hmembers]
  rfl

end Schema
end
end GatewayAdmin
