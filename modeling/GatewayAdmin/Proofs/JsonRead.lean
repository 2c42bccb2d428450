import GatewayAdmin.Json.Reader
import GatewayAdmin.Proofs.JsonParse
import GatewayAdmin.Proofs.Outcome

/-! What reading a draft says about it: it has no fault, and its parts have the values of the
result. Of members of one name the last one counts. -/
namespace GatewayAdmin.Json

theorem endOf_eq_ok_iff {fault : Option Fault} {u : Unit} :
    endOf fault = .ok u ↔ fault = none := by
  cases fault with
  | none => simp [endOf]
  | some f => simp [endOf]

theorem StringText.fault_eq_none {s : StringText} {text : String} (h : s.read = .ok text) :
    s.fault = none := by
  obtain ⟨a, -, h⟩ := bind_eq_ok_iff.mp h
  cases hf : s.fault with
  | none => rfl
  | some f => simp [hf] at h

section
variable {α : Type}

/-- The members as they are kept when they are read in this order. -/
def gather (entries : List (String × α)) : List (String × α) :=
  entries.foldl (fun kept e => insertMember e.1 e.2 kept) []

/-- The value of a name that is given more than once is the last one. -/
def lastMember (entries : List (String × α)) (name : String) : Option α :=
  entries.reverse.lookup name

theorem lookup_cons_eq_ite (name key : String) (value : α) (rest : List (String × α)) :
    ((name, value) :: rest).lookup key = if key = name then some value else rest.lookup key := by
  rw [List.lookup_cons]
  by_cases h : key = name
  · simp [h]
  · simp [h, beq_eq_false_iff_ne.mpr h]

theorem lookup_insertMember (name key : String) (value : α) (kept : List (String × α)) :
    (insertMember name value kept).lookup key =
      if key = name then some value else kept.lookup key := by
  induction kept with
  | nil => exact lookup_cons_eq_ite name key value []
  | cons e kept ih =>
    obtain ⟨k, v⟩ := e
    by_cases hless : name < k
    · rw [insertMember, if_pos hless, lookup_cons_eq_ite]
    rw [insertMember, if_neg hless]
    by_cases hsame : name = k
    · subst hsame
      rw [if_pos rfl, lookup_cons_eq_ite, lookup_cons_eq_ite]
      split_ifs <;> rfl
    · rw [if_neg hsame, lookup_cons_eq_ite, lookup_cons_eq_ite, ih]
      by_cases hkey : key = k
      · rw [if_pos hkey, if_pos hkey, if_neg fun h => hsame (h.symm.trans hkey)]
      · rw [if_neg hkey, if_neg hkey]

theorem lookup_gather (entries : List (String × α)) (name : String) :
    (gather entries).lookup name = lastMember entries name := by
  induction entries using List.reverseRecOn with
  | nil => rfl
  | append_singleton entries e ih =>
    rw [gather, List.foldl_append, ← gather, List.foldl_cons, List.foldl_nil, lookup_insertMember,
      ih, lastMember, lastMember, List.reverse_append, List.reverse_singleton,
      List.singleton_append, lookup_cons_eq_ite]

theorem readItems_eq_ok_iff {read : Draft → Read α} {items : List Draft} {fault : Option Fault}
    {values : List α} :
    readItems read items fault = .ok values ↔
      List.Forall₂ (fun d v => read d = .ok v) items values ∧ fault = none := by
  simp only [readItems, bind_eq_ok_iff, mapM_eq_ok_iff, endOf_eq_ok_iff]
  constructor
  · rintro ⟨_, hvalues, -, hfault, h⟩
    obtain rfl := Except.ok.inj h
    exact ⟨hvalues, hfault⟩
  · rintro ⟨hvalues, hfault⟩
    exact ⟨values, hvalues, (), hfault, rfl⟩

/-- The name and the value of one member. -/
def MemberRead (read : Draft → Read α) (m : StringText × Draft) (e : String × α) : Prop :=
  m.1.read = .ok e.1 ∧ read m.2 = .ok e.2

theorem foldlM_members_eq_ok_iff {read : Draft → Read α} {members : List (StringText × Draft)}
    {kept values : List (String × α)} :
    members.foldlM (fun acc m => do
        let name ← m.1.read
        return insertMember name (← read m.2) acc) kept = .ok values ↔
      ∃ entries, List.Forall₂ (MemberRead read) members entries ∧
        values = entries.foldl (fun kept e => insertMember e.1 e.2 kept) kept := by
  induction members generalizing kept with
  | nil => simp [pure, Except.pure, eq_comm]
  | cons m members ih =>
    simp only [List.foldlM_cons, bind_eq_ok_iff, ih, List.forall₂_cons_left_iff]
    constructor
    · rintro ⟨_, ⟨name, hname, v, hv, h⟩, entries, hentries, rfl⟩
      obtain rfl := Except.ok.inj h
      exact ⟨(name, v) :: entries, ⟨_, _, ⟨hname, hv⟩, hentries, rfl⟩, rfl⟩
    · rintro ⟨_, ⟨⟨name, v⟩, entries, ⟨hname, hv⟩, hentries, rfl⟩, rfl⟩
      exact ⟨_, ⟨name, hname, v, hv, rfl⟩, entries, hentries, rfl⟩

theorem readMembers_eq_ok_iff {read : Draft → Read α} {members : List (StringText × Draft)}
    {fault : Option Fault} {values : List (String × α)} :
    readMembers read members fault = .ok values ↔
      ∃ entries, List.Forall₂ (MemberRead read) members entries ∧ fault = none ∧
        values = gather entries := by
  simp only [readMembers, bind_eq_ok_iff, foldlM_members_eq_ok_iff, endOf_eq_ok_iff]
  constructor
  · rintro ⟨_, ⟨entries, hentries, rfl⟩, -, hfault, h⟩
    exact ⟨entries, hentries, hfault, (Except.ok.inj h).symm⟩
  · rintro ⟨entries, hentries, hfault, rfl⟩
    exact ⟨_, ⟨entries, hentries, rfl⟩, (), hfault, rfl⟩

end

theorem sound_object {α : Type} {read : Draft → Read α} {members : List (StringText × Draft)}
    {entries : List (String × α)} (h : List.Forall₂ (MemberRead read) members entries)
    (hread : ∀ {d v}, read d = .ok v → d.Sound) : (Draft.object members none).Sound := by
  refine .object (fun m hm => ?_) fun m hm => ?_
  · obtain ⟨e, -, hname, -⟩ := exists_right_of_mem h hm
    exact StringText.fault_eq_none hname
  · obtain ⟨e, -, -, hvalue⟩ := exists_right_of_mem h hm
    exact hread hvalue

/-- The ways in which a value is read. What stands in a container is read to one level less. -/
inductive Draft.ReadsTo : Nat → Draft → Value → Prop
  | null {depth : Nat} : ReadsTo depth .null .null
  | bool {depth : Nat} (b : Bool) : ReadsTo depth (.bool b) (.bool b)
  | number {depth : Nat} {t : NumberText} {n : Number} (h : t.read = .ok n) :
      ReadsTo depth (.number t) (.number n)
  | string {depth : Nat} {s : StringText} {text : String} (h : s.read = .ok text) :
      ReadsTo depth (.string s) (.string text)
  | array {depth : Nat} {items : List Draft} {values : List Value}
      (h : List.Forall₂ (fun d v => d.readValue depth = .ok v) items values) :
      ReadsTo (depth + 1) (.array items none) (.array values)
  | object {depth : Nat} {members : List (StringText × Draft)} {entries : List (String × Value)}
      (h : List.Forall₂ (MemberRead (Draft.readValue depth)) members entries) :
      ReadsTo (depth + 1) (.object members none) (.object (gather entries))

theorem Draft.readsTo_of_readValue {depth : Nat} {d : Draft} {v : Value}
    (h : d.readValue depth = .ok v) : d.ReadsTo depth v := by
  cases d with
  | null =>
    rw [readValue] at h
    obtain rfl := Except.ok.inj h
    exact .null
  | bool b =>
    rw [readValue] at h
    obtain rfl := Except.ok.inj h
    exact .bool b
  | number t =>
    rw [readValue] at h
    obtain ⟨n, hn, h⟩ := bind_eq_ok_iff.mp h
    obtain rfl := Except.ok.inj h
    exact .number hn
  | string s =>
    rw [readValue] at h
    obtain ⟨text, htext, h⟩ := bind_eq_ok_iff.mp h
    obtain rfl := Except.ok.inj h
    exact .string htext
  | broken f => simp [readValue] at h
  | array items fault =>
    cases depth with
    | zero => simp [readValue] at h
    | succ depth =>
      obtain ⟨values, hitems, h⟩ := bind_eq_ok_iff.mp h
      obtain rfl := Except.ok.inj h
      obtain ⟨hvalues, rfl⟩ := readItems_eq_ok_iff.mp hitems
      exact .array hvalues
  | object members fault =>
    cases depth with
    | zero => simp [readValue] at h
    | succ depth =>
      obtain ⟨values, hmembers, h⟩ := bind_eq_ok_iff.mp h
      obtain rfl := Except.ok.inj h
      obtain ⟨entries, hentries, rfl, rfl⟩ := readMembers_eq_ok_iff.mp hmembers
      exact .object hentries

/-- Only a draft without fault can be read. -/
theorem Draft.sound_of_readValue {depth : Nat} {d : Draft} {v : Value}
    (h : d.readValue depth = .ok v) : d.Sound := by
  induction depth using Nat.strongRecOn generalizing d v with
  | ind depth ih =>
    cases readsTo_of_readValue h with
    | null => exact .null
    | bool b => exact .bool b
    | number _ => exact .number _
    | string htext => exact .string (StringText.fault_eq_none htext)
    | @array inner _ _ hvalues =>
      apply Sound.array
      intro d hd
      obtain ⟨v, -, hv⟩ := exists_right_of_mem hvalues hd
      exact ih inner (Nat.lt_succ_self inner) hv
    | @object inner _ _ hentries =>
      exact sound_object hentries fun hv => ih inner (Nat.lt_succ_self inner) hv

/-- The text is an object whose members, in their order, are these: each name is a text, and each
value can be represented and nests no deeper than `depth` containers. -/
def ObjectText (depth : Nat) (text : List UInt8) (entries : List (String × Value)) : Prop :=
  ∃ members, Spells (.object members none) text ∧
    List.Forall₂ (MemberRead (Draft.readValue depth)) members entries

theorem readText_eq_ok_iff {α : Type} {read : Draft → Read α} {text : List UInt8} {a : α} :
    readText read text = .ok a ↔ ∃ d, document text = ⟨d, true⟩ ∧ read d = .ok a := by
  simp only [readText, bind_eq_ok_iff]
  constructor
  · rintro ⟨b, hread, h⟩
    split_ifs at h with hclean
    obtain rfl := Except.ok.inj h
    exact ⟨(document text).draft, by rw [← hclean], hread⟩
  · rintro ⟨d, hdoc, hread⟩
    simp [hdoc, hread]

end GatewayAdmin.Json
