import GatewayAdmin.Proofs.AuthorityText
import Mathlib.Data.List.TakeWhile

/-! Absolute URIs as a grammar: a scheme name, `://`, an authority and what follows it. Reading a
text as an absolute URI is finding these parts, and what is put behind such a text goes to its last
part alone. -/
namespace GatewayAdmin

theorem toLower_eq_iff {c m : Char} (hl : ¬ ('a' ≤ m ∧ m ≤ 'z')) (hu : ¬ ('A' ≤ m ∧ m ≤ 'Z')) :
    c.toLower = m ↔ c = m := by
  unfold Char.toLower
  split_ifs with h
  · constructor
    · rintro rfl
      exfalso
      apply hl
      simp only [ge_iff_le, Char.le_def, UInt32.le_iff_toNat_le, UInt32.toNat_add] at h ⊢
      change 65 ≤ c.val.toNat ∧ c.val.toNat ≤ 90 at h
      change 97 ≤ (c.val.toNat + 32) % 2 ^ 32 ∧ (c.val.toNat + 32) % 2 ^ 32 ≤ 122
      omega
    · rintro rfl
      exact absurd h hu
  · rfl

namespace Scheme

/-- The scheme that a written name stands for. -/
def ofName (name : List Char) : Scheme :=
  if name.map Char.toLower = "http".toList then http
  else if name.map Char.toLower = "https".toList then https
  else other (String.ofList name)

theorem isSchemeChar_of_toLower {c : Char} (hl : 'a' ≤ c.toLower) (hu : c.toLower ≤ 'z') :
    isSchemeChar c = true := by
  have hc : ('a' ≤ c ∧ c ≤ 'z') ∨ ('A' ≤ c ∧ c ≤ 'Z') := by
    unfold Char.toLower at hl hu
    split_ifs at hl hu with h
    · exact .inr h
    · exact .inl ⟨hl, hu⟩
  rcases hc with ⟨h₁, h₂⟩ | ⟨h₁, h₂⟩ <;> simp [isSchemeChar, h₁, h₂]

end Scheme

theorem Authority.ofChars?_eq_some_iff {cs : List Char} {a : Authority} :
    ofChars? cs = some a ↔ a.text.toList = cs := by
  obtain ⟨text, ha⟩ := a
  unfold ofChars?
  constructor
  · intro h
    split_ifs at h with hc
    simpa using (congrArg String.toList (congrArg Authority.text (Option.some.inj h))).symm
  · rintro rfl
    simp [ha]

namespace Uri

open Scheme

theorem stripIgnoringCase?_cons (a c : Char) (lower cs : List Char) :
    stripIgnoringCase? (a :: lower) (c :: cs) =
      if c.toLower = a then stripIgnoringCase? lower cs else none := by
  by_cases h : c.toLower = a <;> simp [stripIgnoringCase?, h]

theorem stripIgnoringCase?_mark {cs rest : List Char} :
    stripIgnoringCase? [':', '/', '/'] cs = some rest ↔ cs = ':' :: '/' :: '/' :: rest := by
  -- the marks have no case, so they are found only as they are
  have hc : ∀ c : Char, c.toLower = ':' ↔ c = ':' := fun c => toLower_eq_iff (by decide) (by decide)
  have hs : ∀ c : Char, c.toLower = '/' ↔ c = '/' := fun c => toLower_eq_iff (by decide) (by decide)
  match cs with
  | [] => simp [stripIgnoringCase?]
  | [a] => simp [stripIgnoringCase?]
  | [a, b] => simp [stripIgnoringCase?]
  | a :: b :: c :: cs =>
    simp only [stripIgnoringCase?_cons, hc, hs]
    by_cases h : a = ':' ∧ b = '/' ∧ c = '/'
    · obtain ⟨rfl, rfl, rfl⟩ := h
      simp [stripIgnoringCase?]
    · simp only [List.cons.injEq]
      split_ifs <;> simp_all

/-- Looking for a scheme in any case of its letters is looking at the longest run of scheme
characters. -/
theorem stripIgnoringCase?_eq_some_iff {name cs rest : List Char}
    (hn : name.all (fun c => 'a' ≤ c && c ≤ 'z') = true) :
    stripIgnoringCase? (name ++ [':', '/', '/']) cs = some rest ↔
      (cs.takeWhile isSchemeChar).map Char.toLower = name ∧
        cs.dropWhile isSchemeChar = ':' :: '/' :: '/' :: rest := by
  induction name generalizing cs with
  | nil =>
    rw [List.nil_append, stripIgnoringCase?_mark, List.map_eq_nil_iff]
    constructor
    · rintro rfl
      exact ⟨rfl, rfl⟩
    · rintro ⟨ht, hd⟩
      rw [← List.takeWhile_append_dropWhile (p := isSchemeChar) (l := cs), ht, hd, List.nil_append]
  | cons a name ih =>
    simp only [List.all_cons, Bool.and_eq_true, decide_eq_true_eq] at hn
    obtain ⟨⟨ha, ha'⟩, hname⟩ := hn
    cases cs with
    | nil => simp [stripIgnoringCase?]
    | cons c cs =>
      rw [List.cons_append, stripIgnoringCase?_cons]
      split_ifs with h
      · subst h
        have hc := isSchemeChar_of_toLower ha ha'
        rw [ih hname]
        simp [hc]
      · by_cases hc : isSchemeChar c = true
        · simp [hc, h]
        · simp [hc]

/-- The scheme is named by the longest run of scheme characters, if `://` stands behind it. -/
theorem searchScheme_eq_found_iff {cs rest : List Char} {scheme : Scheme} :
    searchScheme cs = .found scheme rest ↔
      cs.dropWhile isSchemeChar = ':' :: '/' :: '/' :: rest ∧
        (cs.takeWhile isSchemeChar).length ≤ maxLength ∧
        scheme = ofName (cs.takeWhile isSchemeChar) := by
  have hhttp (r : List Char) := @stripIgnoringCase?_eq_some_iff "http".toList cs r (by decide)
  have hhttps (r : List Char) := @stripIgnoringCase?_eq_some_iff "https".toList cs r (by decide)
  change ∀ r, stripIgnoringCase? "http://".toList cs = some r ↔ _ at hhttp
  change ∀ r, stripIgnoringCase? "https://".toList cs = some r ↔ _ at hhttps
  unfold searchScheme
  -- all three searches now speak of the run of scheme characters and of what is behind it
  generalize cs.takeWhile isSchemeChar = name at hhttp hhttps ⊢
  generalize cs.dropWhile isSchemeChar = after at hhttp hhttps ⊢
  cases h₁ : stripIgnoringCase? "http://".toList cs with
  | some r =>
    obtain ⟨hname, rfl⟩ := (hhttp r).mp h₁
    have hlen : name.length = 4 := by simpa using congrArg List.length hname
    simp [ofName, hname, hlen, maxLength, eq_comm, and_comm]
  | none =>
    cases h₂ : stripIgnoringCase? "https://".toList cs with
    | some r =>
      obtain ⟨hname, rfl⟩ := (hhttps r).mp h₂
      have hlen : name.length = 5 := by simpa using congrArg List.length hname
      simp [ofName, hname, hlen, maxLength, eq_comm, and_comm]
    | none =>
      simp only [h₁, h₂, reduceCtorEq, false_iff, not_and] at hhttp hhttps
      dsimp only
      split
      · next r =>
        have n₁ : name.map Char.toLower ≠ "http".toList := fun h => hhttp r h rfl
        have n₂ : name.map Char.toLower ≠ "https".toList := fun h => hhttps r h rfl
        rw [ofName, if_neg n₁, if_neg n₂]
        split_ifs with hlen
        · simp only [false_iff]
          omega
        · simp only [SchemeSearch.found.injEq, List.cons.injEq, true_and]
          constructor
          · rintro ⟨rfl, rfl⟩
            exact ⟨rfl, by omega, rfl⟩
          · rintro ⟨rfl, -, rfl⟩
            exact ⟨rfl, rfl⟩
      · next hno =>
        simp only [reduceCtorEq, false_iff]
        exact fun h => hno rest h.1

/-- How the text of an absolute URI is put together. -/
structure IsAbsolute (text name : List Char) (authority : Authority) (tail : List Char) :
    Prop where
  text_eq : text = name ++ ':' :: '/' :: '/' :: (authority.text.toList ++ tail)
  name_chars : ∀ c ∈ name, isSchemeChar c = true
  name_length : name.length ≤ maxLength
  tail_start : ∀ c ∈ tail.head?, isAuthorityEnd c = true

namespace IsAbsolute

variable {text name tail : List Char} {authority : Authority}

/-- What is put behind an absolute URI goes to its tail. -/
theorem append (h : IsAbsolute text name authority tail) {more : List Char}
    (hmore : ∀ c ∈ more.head?, isAuthorityEnd c = true) :
    IsAbsolute (text ++ more) name authority (tail ++ more) where
  text_eq := by simp [h.text_eq]
  name_chars := h.name_chars
  name_length := h.name_length
  tail_start := by
    cases htail : tail with
    | nil => simpa using hmore
    | cons c tail => simpa [htail] using h.tail_start

theorem searchScheme_eq (h : IsAbsolute text name authority tail) :
    searchScheme text = .found (ofName name) (authority.text.toList ++ tail) := by
  rw [searchScheme_eq_found_iff, h.text_eq, List.takeWhile_append_of_pos h.name_chars,
    List.dropWhile_append_of_pos h.name_chars]
  simpa [isSchemeChar] using h.name_length

theorem takeWhile_eq (h : IsAbsolute text name authority tail) :
    (authority.text.toList ++ tail).takeWhile (!isAuthorityEnd ·) = authority.text.toList := by
  rw [List.takeWhile_append_of_pos (by simpa using authority.not_isAuthorityEnd)]
  cases htail : tail with
  | nil => simp
  | cons c tail => simp [h.tail_start c (by simp [htail])]

theorem dropWhile_eq (h : IsAbsolute text name authority tail) :
    (authority.text.toList ++ tail).dropWhile (!isAuthorityEnd ·) = tail := by
  rw [List.dropWhile_append_of_pos (by simpa using authority.not_isAuthorityEnd)]
  cases htail : tail with
  | nil => simp
  | cons c tail => simp [h.tail_start c (by simp [htail])]

theorem readAbsolute?_eq (h : IsAbsolute text name authority tail) (scheme : Scheme) :
    readAbsolute? scheme (authority.text.toList ++ tail) = (readPathQuery? tail).map fun p =>
      .absoluteForm scheme authority (if p.1 = "" then "/" else p.1) p.2 := by
  have ha : Authority.ofChars? authority.text.toList = some authority :=
    Authority.ofChars?_eq_some_iff.mpr rfl
  rw [readAbsolute?, h.takeWhile_eq, h.dropWhile_eq, ha]
  cases readPathQuery? tail <;> rfl

theorem text_eq_cons (h : IsAbsolute text name authority tail) :
    ∃ c d r, text = c :: d :: r ∧ c ≠ '/' := by
  rw [h.text_eq]
  cases hname : name with
  | nil => exact ⟨':', '/', _, rfl, by decide⟩
  | cons c rest =>
    have hc : isSchemeChar c = true := h.name_chars c (by simp [hname])
    have hne : c ≠ '/' := by
      rintro rfl
      contradiction
    cases rest with
    | nil => exact ⟨c, ':', _, rfl, hne⟩
    | cons d rest => exact ⟨c, d, _, rfl, hne⟩

/-- The text is neither the asterisk nor a path, so it is read as a full URI. -/
theorem parse?_eq (h : IsAbsolute text name authority tail) {s : String} (hs : s.toList = text)
    (hlen : s.utf8ByteSize ≤ maxBytes) :
    parse? s = (readPathQuery? tail).map fun p =>
      .absoluteForm (ofName name) authority (if p.1 = "" then "/" else p.1) p.2 := by
  have hfull : parse? s = readFull? text := by
    obtain ⟨c, d, r, htext, hc⟩ := h.text_eq_cons
    rw [parse?, if_neg (by omega), hs, htext]
    split
    · contradiction
    · next heq => simp at heq
    · next heq => exact absurd (List.cons.inj heq).1 hc
    · rfl
  rw [hfull, readFull?, h.searchScheme_eq]
  exact h.readAbsolute?_eq (ofName name)

end IsAbsolute

theorem isAuthorityEnd_of_mem_head?_dropWhile {cs : List Char} :
    ∀ c ∈ (cs.dropWhile (!isAuthorityEnd ·)).head?, isAuthorityEnd c = true := by
  intro c hc
  have h := List.head?_dropWhile_not (!isAuthorityEnd ·) cs
  rw [Option.mem_def.mp hc] at h
  simpa using h

theorem readAbsolute?_cases {scheme scheme' : Scheme} {authority : Authority} {cs : List Char}
    {path : String} {query : Option String}
    (h : readAbsolute? scheme cs = some (.absoluteForm scheme' authority path query)) :
    scheme = scheme' ∧ ∃ tail p, cs = authority.text.toList ++ tail ∧
      (∀ c ∈ tail.head?, isAuthorityEnd c = true) ∧ readPathQuery? tail = some (p, query) ∧
      path = if p = "" then "/" else p := by
  unfold readAbsolute? at h
  obtain ⟨a, ha, h⟩ := Option.bind_eq_some_iff.mp h
  obtain ⟨⟨p, q⟩, hread, h⟩ := Option.bind_eq_some_iff.mp h
  obtain ⟨rfl, rfl, rfl, rfl⟩ : scheme = scheme' ∧ a = authority ∧
      (if p = "" then "/" else p) = path ∧ q = query := by
    simpa using h
  refine ⟨rfl, cs.dropWhile (!isAuthorityEnd ·), p, ?_, isAuthorityEnd_of_mem_head?_dropWhile,
    hread, rfl⟩
  rw [Authority.ofChars?_eq_some_iff.mp ha, List.takeWhile_append_dropWhile]

theorem readFull?_of_parse? {s path : String} {scheme : Scheme} {authority : Authority}
    {query : Option String} (h : parse? s = some (.absoluteForm scheme authority path query)) :
    s.utf8ByteSize ≤ maxBytes ∧
      readFull? s.toList = some (.absoluteForm scheme authority path query) := by
  unfold parse? at h
  split_ifs at h with hlen
  refine ⟨by omega, ?_⟩
  split at h
  · contradiction
  · simp at h
  · simp at h
  · exact h

/-- Reading an absolute URI is finding its parts, within the bound on its size. -/
theorem parse?_eq_absoluteForm_iff {s path : String} {scheme : Scheme} {authority : Authority}
    {query : Option String} :
    parse? s = some (.absoluteForm scheme authority path query) ↔
      s.utf8ByteSize ≤ maxBytes ∧ ∃ name tail p, IsAbsolute s.toList name authority tail ∧
        scheme = ofName name ∧ readPathQuery? tail = some (p, query) ∧
        path = if p = "" then "/" else p := by
  constructor
  · intro h
    obtain ⟨hlen, hfull⟩ := readFull?_of_parse? h
    refine ⟨hlen, ?_⟩
    unfold readFull? at hfull
    cases hsearch : searchScheme s.toList with
    | absent => simp [hsearch] at hfull
    | tooLong => simp [hsearch] at hfull
    | found found rest =>
      obtain ⟨hd, hname, rfl⟩ := searchScheme_eq_found_iff.mp hsearch
      simp only [hsearch] at hfull
      obtain ⟨rfl, tail, p, hrest, hstart, hread, hpath⟩ := readAbsolute?_cases hfull
      have htext : s.toList = s.toList.takeWhile isSchemeChar ++
          ':' :: '/' :: '/' :: (authority.text.toList ++ tail) := by
        rw [← hrest, ← hd, List.takeWhile_append_dropWhile]
      exact ⟨_, tail, p, ⟨htext, fun _ hc => List.mem_takeWhile_imp hc, hname, hstart⟩, rfl, hread,
        hpath⟩
  · rintro ⟨hlen, name, tail, p, h, rfl, hread, rfl⟩
    rw [h.parse?_eq rfl hlen, hread]
    rfl

/-- What stands behind the authority of an absolute URI. -/
def afterAuthority (s : String) : String :=
  String.ofList (((s.toList.dropWhile isSchemeChar).drop 3).dropWhile (!isAuthorityEnd ·))

theorem IsAbsolute.afterAuthority_eq {s : String} {name tail : List Char} {authority : Authority}
    (h : IsAbsolute s.toList name authority tail) : afterAuthority s = String.ofList tail := by
  have hd : s.toList.dropWhile isSchemeChar =
      ':' :: '/' :: '/' :: (authority.text.toList ++ tail) := by
    rw [h.text_eq, List.dropWhile_append_of_pos h.name_chars]
    rfl
  rw [afterAuthority, hd]
  simp only [List.drop_succ_cons, List.drop_zero]
  rw [h.dropWhile_eq]

/-- No character of a path ends it. -/
theorem not_isPathEnd {path : List Char} (h : ∀ c ∈ path, isPathChar c = true) :
    ∀ c ∈ path, (!isPathEnd c) = true := by
  have hq : '?' ∉ path := Text.not_mem_of_class h (by decide)
  have hf : '#' ∉ path := Text.not_mem_of_class h (by decide)
  intro c hc
  simp [isPathEnd, ne_of_mem_of_not_mem hc hq, ne_of_mem_of_not_mem hc hf]

theorem readQuery?_eq {query : List Char} (h : ∀ c ∈ query, isQueryChar c = true) :
    readQuery? query = some (String.ofList query) := by
  have hno : '#' ∉ query := Text.not_mem_of_class h (by decide)
  have hq : ∀ c ∈ query, decide (c ≠ '#') = true :=
    fun c hc => decide_eq_true (ne_of_mem_of_not_mem hc hno)
  rw [readQuery?, List.takeWhile_eq_self_iff.mpr hq]
  simp [List.all_eq_true.mpr h]

theorem readPathQuery?_path {path : List Char} (h : ∀ c ∈ path, isPathChar c = true) :
    readPathQuery? path = some (String.ofList path, none) := by
  have hend := not_isPathEnd h
  rw [readPathQuery?, List.takeWhile_eq_self_iff.mpr hend, List.dropWhile_eq_nil_iff.mpr hend]
  simp [List.all_eq_true.mpr h]

theorem readPathQuery?_path_query {path query : List Char} (hp : ∀ c ∈ path, isPathChar c = true)
    (hq : ∀ c ∈ query, isQueryChar c = true) :
    readPathQuery? (path ++ '?' :: query) =
      some (String.ofList path, some (String.ofList query)) := by
  have hend := not_isPathEnd hp
  have hmark : isPathEnd '?' = true := by decide
  rw [readPathQuery?, List.takeWhile_append_of_pos hend, List.dropWhile_append_of_pos hend]
  simp [hmark, List.all_eq_true.mpr hp, readQuery?_eq hq]

/-- Without a mark that ends it, all of what is read is a path. -/
theorem isPathChar_of_readPathQuery? {cs : List Char} {p : String × Option String}
    (h : readPathQuery? cs = some p) (hend : ∀ c ∈ cs, isPathEnd c = false) :
    ∀ c ∈ cs, isPathChar c = true := by
  have htake : cs.takeWhile (!isPathEnd ·) = cs :=
    List.takeWhile_eq_self_iff.mpr (by simpa using hend)
  unfold readPathQuery? at h
  rw [htake] at h
  by_contra hno
  rw [← List.all_eq_true] at hno
  simp [hno] at h

end Uri
end GatewayAdmin
