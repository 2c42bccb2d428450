import GatewayAdmin.Proofs.TimestampText
import GatewayAdmin.Uri
import Mathlib.Data.List.Induction

/-! What authorities are made of, and with them hosts: visible ASCII characters, none of which
begins a path. The scan keeps this from character to character, so no accepted authority holds
anything else. From its counter and its brackets it follows that an address is closed and that at
most one colon stands behind the user information and the address. -/
namespace GatewayAdmin

open Text

/-- What holds behind each occurrence of `x`, once a text has one more character. -/
theorem forall_behind_concat_iff {α : Type} {x c : α} {cs : List α} {p : List α → Prop} :
    (∀ tail, x :: tail <:+ cs ++ [c] → p tail) ↔
      (x = c → p []) ∧ ∀ rest, x :: rest <:+ cs → p (rest ++ [c]) := by
  constructor
  · intro h
    refine ⟨?_, fun rest hrest => h (rest ++ [c]) ?_⟩
    · rintro rfl
      exact h [] (List.suffix_append cs [x])
    · obtain ⟨front, rfl⟩ := hrest
      exact ⟨front, by simp⟩
  · rintro ⟨hnew, hold⟩ tail h
    rcases List.suffix_concat_iff.mp h with h | ⟨t, ht, hs⟩
    · exact absurd h (List.cons_ne_nil _ _)
    · cases t with
      | nil =>
        obtain ⟨rfl, rfl⟩ := List.cons.inj ht
        exact hnew rfl
      | cons y rest =>
        obtain ⟨rfl, rfl⟩ := List.cons.inj ht
        exact hold rest hs

namespace AuthorityScan

/-- The characters that a scan can take. -/
def isAuthorityChar (c : Char) : Bool := ":[]@%".toList.contains c || isPlain c

theorem isVisible_of_isPlain {c : Char} (h : isPlain c = true) : isVisible c = true := by
  have hm : AllVisible "!$&'()*+,-.;=_~".toList := by decide
  simp only [isPlain, Bool.or_eq_true, Bool.and_eq_true, decide_eq_true_eq,
    List.contains_iff_mem] at h
  rcases h with ((⟨hl, hu⟩ | ⟨hl, hu⟩) | ⟨hl, hu⟩) | h
  · exact isVisible_of_between hl hu (by decide) (by decide)
  · exact isVisible_of_between hl hu (by decide) (by decide)
  · exact isVisible_of_between hl hu (by decide) (by decide)
  · exact hm c h

theorem isVisible_of_isAuthorityChar {c : Char} (h : isAuthorityChar c = true) :
    isVisible c = true := by
  have hm : AllVisible ":[]@%".toList := by decide
  simp only [isAuthorityChar, Bool.or_eq_true, List.contains_iff_mem] at h
  rcases h with h | h
  · exact hm c h
  · exact isVisible_of_isPlain h

/-- One step takes a character of an authority or fails. -/
theorem isAuthorityChar_of_step {s s' : AuthorityScan} {c : Char} (h : s.step c = some s') :
    isAuthorityChar c = true := by
  unfold step at h
  split at h
  · decide
  · decide
  · decide
  · decide
  · decide
  · split_ifs at h with hp
    rw [isAuthorityChar, hp, Bool.or_true]

theorem isAuthorityChar_of_foldlM {cs : List Char} {s s' : AuthorityScan}
    (h : cs.foldlM step s = some s') : ∀ c ∈ cs, isAuthorityChar c = true := by
  -- the state is free, since the rest is scanned from wherever the first character led
  induction cs generalizing s with
  | nil => simp
  | cons c cs ih =>
    rw [List.foldlM_cons] at h
    obtain ⟨next, hstep, hrest⟩ := Option.bind_eq_some_iff.mp h
    exact List.forall_mem_cons.mpr ⟨isAuthorityChar_of_step hstep, ih hrest⟩

/-- A mark from which colons are counted anew. -/
def HasMark (cs : List Char) : Prop := '@' ∈ cs ∨ ']' ∈ cs

theorem HasMark.append {cs : List Char} (h : HasMark cs) (ds : List Char) : HasMark (cs ++ ds) :=
  h.imp (List.mem_append_left ds) (List.mem_append_left ds)

theorem hasMark_concat {c : Char} (h : c = '@' ∨ c = ']') (cs : List Char) :
    HasMark (cs ++ [c]) := by
  rcases h with rfl | rfl
  · exact .inl (by simp)
  · exact .inr (by simp)

/-- All that a step does to the counter and to the brackets. -/
theorem fields_of_step {s s' : AuthorityScan} {c : Char} (h : s.step c = some s') :
    s'.colons = (if c = ':' then s.colons + 1 else if c = '@' ∨ c = ']' then 0 else s.colons) ∧
    s'.bracketOpen = (s.bracketOpen || c = '[') ∧
    s'.bracketClosed = (s.bracketClosed || c = ']') ∧
    (c = '[' → s.bracketOpen = false) ∧ (c = ']' → s.bracketOpen = true) := by
  unfold step at h
  split at h
  · split_ifs at h
    obtain rfl := Option.some.inj h
    simp
  · split_ifs at h
    obtain rfl := Option.some.inj h
    simp_all
  · split_ifs at h
    obtain rfl := Option.some.inj h
    simp_all
  · obtain rfl := Option.some.inj h
    simp
  · obtain rfl := Option.some.inj h
    simp
  · split_ifs at h
    obtain rfl := Option.some.inj h
    simp_all

/-- What the state of a scan says of the text that was scanned. -/
structure Scanned (cs : List Char) (s : AuthorityScan) : Prop where
  noColon : s.colons = 0 → ∀ tail, ':' :: tail <:+ cs → HasMark tail
  oneColon : s.colons ≤ 1 → ∀ tail, ':' :: tail <:+ cs → ':' ∈ tail → HasMark tail
  unopened : s.bracketOpen = false → '[' ∉ cs
  opened : s.bracketClosed = true → s.bracketOpen = true
  closed : s.bracketClosed = true → ∀ tail, '[' :: tail <:+ cs → ']' ∈ tail

theorem scanned_start : Scanned [] {} := by
  constructor <;> simp

theorem Scanned.step {cs : List Char} {s s' : AuthorityScan} {c : Char} (h : Scanned cs s)
    (hs : s.step c = some s') : Scanned (cs ++ [c]) s' := by
  obtain ⟨hcolons, hopen, hclosed, hfirst, hpaired⟩ := fields_of_step hs
  constructor
  · intro hzero
    rw [hcolons] at hzero
    rw [forall_behind_concat_iff]
    split_ifs at hzero with hc hmark
    · exact ⟨fun he => absurd he.symm hc, fun rest _ => hasMark_concat hmark rest⟩
    · exact ⟨fun he => absurd he.symm hc, fun rest hr => (h.noColon hzero rest hr).append [c]⟩
  · intro hone
    rw [hcolons] at hone
    rw [forall_behind_concat_iff]
    refine ⟨fun _ hmem => absurd hmem List.not_mem_nil, fun rest hr hmem => ?_⟩
    split_ifs at hone with hc hmark
    · exact (h.noColon (by omega) rest hr).append [c]
    · exact hasMark_concat hmark rest
    · have hrest : ':' ∈ rest := by simpa [Ne.symm hc] using hmem
      exact (h.oneColon hone rest hr hrest).append [c]
  · intro hnone
    rw [hopen, Bool.or_eq_false_iff, decide_eq_false_iff_not] at hnone
    simpa [Ne.symm hnone.2] using h.unopened hnone.1
  · intro hboth
    rw [hclosed, Bool.or_eq_true, decide_eq_true_eq] at hboth
    rw [hopen, hboth.elim h.opened hpaired, Bool.true_or]
  · intro hboth
    rw [hclosed, Bool.or_eq_true, decide_eq_true_eq] at hboth
    rw [forall_behind_concat_iff]
    refine ⟨?_, fun rest hr => ?_⟩
    · rintro rfl
      -- A second opening bracket would have been refused.
      have hopened := hboth.elim h.opened hpaired
      rw [hfirst rfl] at hopened
      contradiction
    · rcases hboth with hboth | rfl
      · exact List.mem_append_left _ (h.closed hboth rest hr)
      · simp

theorem scanned_foldlM {cs : List Char} {s : AuthorityScan}
    (h : cs.foldlM AuthorityScan.step {} = some s) : Scanned cs s := by
  induction cs using List.reverseRecOn generalizing s with
  | nil =>
    obtain rfl := Option.some.inj h
    exact scanned_start
  | append_singleton cs c ih =>
    rw [List.foldlM_append] at h
    obtain ⟨before, hbefore, hlast⟩ := Option.bind_eq_some_iff.mp h
    rw [List.foldlM_cons] at hlast
    obtain ⟨after, hstep, hend⟩ := Option.bind_eq_some_iff.mp hlast
    obtain rfl := Option.some.inj hend
    exact (ih hbefore).step hstep

end AuthorityScan

namespace Authority

open AuthorityScan

theorem exists_scan (a : Authority) :
    ∃ s, a.text.toList.foldlM AuthorityScan.step {} = some s ∧ s.isComplete = true := by
  have ha := a.isAuthority
  simp only [GatewayAdmin.isAuthority, Bool.and_eq_true] at ha
  exact (Option.any_eq_true _ _).mp ha.2

theorem isAuthorityChar_of_mem (a : Authority) :
    ∀ c ∈ a.text.toList, AuthorityScan.isAuthorityChar c = true := by
  obtain ⟨s, hs, -⟩ := a.exists_scan
  exact AuthorityScan.isAuthorityChar_of_foldlM hs

theorem allVisible_text (a : Authority) : AllVisible a.text.toList :=
  fun c hc => AuthorityScan.isVisible_of_isAuthorityChar (a.isAuthorityChar_of_mem c hc)

/-- An authority ends where a path, a query or a fragment begins. -/
theorem not_isAuthorityEnd (a : Authority) :
    ∀ c ∈ a.text.toList, Uri.isAuthorityEnd c = false := by
  intro c hc
  have hchar := a.isAuthorityChar_of_mem c hc
  simp only [Uri.isAuthorityEnd, Bool.or_eq_false_iff, decide_eq_false_iff_not]
  refine ⟨⟨?_, ?_⟩, ?_⟩ <;> rintro rfl <;> exact absurd hchar (by decide)

theorem afterLast_append {c : Char} {ys : List Char} (h : c ∉ ys) (xs : List Char) :
    afterLast c (xs ++ ys) = afterLast c xs ++ ys := by
  have hys : ∀ y ∈ ys.reverse, decide (y ≠ c) = true := fun y hy =>
    decide_eq_true (ne_of_mem_of_not_mem (List.mem_reverse.mp hy) h)
  rw [afterLast, afterLast, List.reverse_append, List.takeWhile_append_of_pos hys,
    List.reverse_append, List.reverse_reverse]

theorem afterLast_append_cons {c : Char} {ys : List Char} (h : c ∉ ys) (xs : List Char) :
    afterLast c (xs ++ c :: ys) = ys := by
  have hys : ∀ y ∈ ys.reverse, decide (y ≠ c) = true := fun y hy =>
    decide_eq_true (ne_of_mem_of_not_mem (List.mem_reverse.mp hy) h)
  rw [afterLast, List.reverse_append, List.reverse_cons, List.append_assoc,
    List.takeWhile_append_of_pos hys]
  simp

theorem afterLast_suffix (c : Char) (cs : List Char) : afterLast c cs <:+ cs := by
  have h := List.reverse_suffix.mpr (List.takeWhile_prefix (· ≠ c) (l := cs.reverse))
  rwa [List.reverse_reverse] at h

theorem cons_afterLast_suffix {c : Char} {cs : List Char} (h : c ∈ cs) :
    c :: afterLast c cs <:+ cs := by
  obtain ⟨after, before, hcs, hnot⟩ := List.eq_append_cons_of_mem (List.mem_reverse.mpr h)
  have hsplit : cs = before.reverse ++ c :: after.reverse := by
    simpa using congrArg List.reverse hcs
  rw [hsplit, afterLast_append_cons (by simpa using hnot)]
  exact List.suffix_append _ _

theorem allVisible_hostChars (a : Authority) : AllVisible a.hostChars := by
  have hp : AllVisible (afterLast '@' a.text.toList) :=
    a.allVisible_text.subset (afterLast_suffix _ _).subset
  unfold hostChars
  dsimp only
  split_ifs
  · simp only [allVisible_append, allVisible_cons, AllVisible.nil]
    exact ⟨hp.subset (List.takeWhile_subset _), by decide, trivial⟩
  · exact hp.subset (List.takeWhile_subset _)

/-- An address that is opened is closed. -/
theorem bracket_closed (a : Authority) {tail : List Char} (h : '[' :: tail <:+ a.text.toList) :
    ']' ∈ tail := by
  obtain ⟨s, hs, hcomplete⟩ := a.exists_scan
  simp only [isComplete, Bool.and_eq_true, decide_eq_true_eq] at hcomplete
  have hscanned := scanned_foldlM hs
  have hclosed : s.bracketClosed = true := by
    rw [← hcomplete.1.1.1, ← Bool.not_eq_false]
    exact fun hnone => hscanned.unopened hnone (h.subset (by simp))
  exact hscanned.closed hclosed tail h

/-- Of two colons the first belongs to the user information or to an address. -/
theorem hasMark_of_two_colons (a : Authority) {tail : List Char} (h : ':' :: tail <:+ a.text.toList)
    (hcolon : ':' ∈ tail) : HasMark tail := by
  obtain ⟨s, hs, hcomplete⟩ := a.exists_scan
  simp only [isComplete, Bool.and_eq_true, decide_eq_true_eq] at hcomplete
  exact (scanned_foldlM hs).oneColon hcomplete.1.1.2 tail h hcolon

end Authority
end GatewayAdmin
