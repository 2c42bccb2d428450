import GatewayAdmin.CommandLine.Command
import GatewayAdmin.Proofs.Outcome
import Mathlib.Data.List.Forall2
import Mathlib.Data.List.TakeWhile
import Mathlib.Tactic.SplitIfs

/-! Options as words of a command line. A value stands behind a sign in the word of its option, or
is a word of its own; in what order the options come is all the same to the command that is read. -/
namespace GatewayAdmin.CommandLine

/-- A name that can be told from a value behind it. -/
structure IsOptionName (name : String) : Prop where
  nonempty : name ≠ ""
  noSign : '=' ∉ name.toList

/-- The words that give one of these options its value. -/
inductive Written (options : List OptionRule) : String × GivenValue → List String → Prop
  | joined {name value : String} {rule : OptionRule} {kind : ValueKind} {given : GivenValue}
      (hname : IsOptionName name) (hrule : options.find? (·.long = name) = some rule)
      (hkind : rule.kind = .value kind) (hread : kind.read value = .ok given) :
      Written options (name, given) ["--" ++ name ++ "=" ++ value]
  | apart {name value : String} {rule : OptionRule} {kind : ValueKind} {given : GivenValue}
      (hname : IsOptionName name) (hrule : options.find? (·.long = name) = some rule)
      (hkind : rule.kind = .value kind) (hread : kind.read value = .ok given)
      (hhyphen : rule.hyphens = true ∨ value.toList.head? ≠ some '-') :
      Written options (name, given) ["--" ++ name, value]
  | flag {name : String} {rule : OptionRule} (hname : IsOptionName name)
      (hrule : options.find? (·.long = name) = some rule) (hkind : rule.kind = .flag) :
      Written options (name, .present) ["--" ++ name]

/-! ### One level -/

namespace Level

/-- These values were read, the last of them perhaps without being settled, and an option may
follow. -/
structure Holds (l : Level) (values : Values) : Prop where
  settle : l.settle = .ok { values := values }
  awaiting : l.awaiting? = none
  wordsOnly : l.wordsOnly = false

section
variable {l : Level} {values : Values} {rule : OptionRule} {options : List OptionRule}
  {command : CommandRule} {name value : String} {kind : ValueKind} {given : GivenValue}

theorem holds_of_values (values : Values) : Level.Holds { values := values } values :=
  ⟨rfl, rfl, rfl⟩

theorem recordOnce_of_fresh (hfresh : values.lookup name = none) :
    recordOnce { values := values } name (.ok given) =
      .ok { values := values ++ [(name, given)] } := by
  simp [recordOnce, hfresh, record]

theorem Holds.close (h : l.Holds values) (chosen : Bool) :
    l.close command chosen = Level.close { values := values } command chosen := by
  rw [Level.close, Level.close, h.settle, (holds_of_values values).settle]

theorem Holds.takesHyphens (h : l.Holds values) : l.takesHyphens = false := by
  rw [Level.takesHyphens, h.awaiting]
  rfl

/-- A word that begins with two hyphens is the name of an option and what is attached to it. -/
theorem Holds.argument_long (h : l.Holds values) {word : String} {cs : List Char} (hcs : cs ≠ [])
    (hword : word.toList = '-' :: '-' :: cs) :
    l.argument command options word = l.longOption options cs := by
  rw [argument, h.wordsOnly, h.takesHyphens, hword]
  cases cs with
  | nil => exact absurd rfl hcs
  | cons c cs => rfl

theorem longOption_name (l : Level) (hname : IsOptionName name)
    (hrule : options.find? (·.long = name) = some rule) :
    l.longOption options name.toList =
      match rule.kind with
      | .value kind => l.start rule kind none
      | _ => l.apply rule := by
  have hall : ∀ c ∈ name.toList, decide (c ≠ '=') = true :=
    fun c hc => decide_eq_true (ne_of_mem_of_not_mem hc hname.noSign)
  rw [longOption, List.takeWhile_eq_self_iff.mpr hall, List.dropWhile_eq_nil_iff.mpr hall,
    String.ofList_toList, hrule]
  rfl

theorem longOption_attached (l : Level) (hname : IsOptionName name)
    (hrule : options.find? (·.long = name) = some rule) (hkind : rule.kind = .value kind) :
    l.longOption options (name.toList ++ '=' :: value.toList) = l.start rule kind (some value) := by
  have hall : ∀ c ∈ name.toList, decide (c ≠ '=') = true :=
    fun c hc => decide_eq_true (ne_of_mem_of_not_mem hc hname.noSign)
  rw [longOption, List.takeWhile_append_of_pos hall, List.dropWhile_append_of_pos hall]
  simp [hrule, hkind]

/-- The option that waits for its value takes the word. -/
theorem argument_awaited (hhyphen : rule.hyphens = true ∨ value.toList.head? ≠ some '-') :
    argument { values := values, pending := some (.option rule kind none) } command options value =
      .ok { values := values, pending := some (.option rule kind (some value)) } := by
  rw [argument]
  split_ifs with htakes
  · rfl
  · have hhead : value.toList.head? ≠ some '-' := by
      rcases hhyphen with hhyphen | hhead
      · exact absurd hhyphen htakes
      · exact hhead
    split
    next heq => exact absurd (by rw [heq]; rfl) hhead
    next heq => exact absurd (by rw [heq]; rfl) hhead
    next heq => exact absurd (by rw [heq]; rfl) hhead
    next => rfl

end
end Level

/-! ### Many options -/

section
variable {globals options : List OptionRule} {command : CommandRule} {l : Level}
  {values before : Values} {pieces : List (List String)} {words : List String}

/-- A word at a command that has no commands below it. -/
theorem readLevel_cons (hcommand : ∀ word, command.command? word = none) (word : String)
    (words : List String) : readLevel globals command options l (word :: words) =
      (l.argument command options word >>= fun l => readLevel globals command options l words) := by
  rw [readLevel, hcommand, ite_self]

/-- One option is read, whatever comes behind it. -/
theorem readLevel_written (globals : List OptionRule)
    (hcommand : ∀ word, command.command? word = none)
    {option : String × GivenValue} {piece : List String} (hpiece : Written options option piece)
    (hl : l.Holds values) (hfresh : values.lookup option.1 = none) :
    ∃ l' : Level, l'.Holds (values ++ [option]) ∧ ∀ words,
      readLevel globals command options l (piece ++ words) =
        readLevel globals command options l' words := by
  cases hpiece with
  | @joined name value rule kind given hname hrule hkind hread =>
    obtain rfl : rule.long = name := by simpa using List.find?_some hrule
    have hword : ("--" ++ rule.long ++ "=" ++ value).toList =
        '-' :: '-' :: (rule.long.toList ++ '=' :: value.toList) := by simp
    refine ⟨{ values := values ++ [(rule.long, given)] }, Level.holds_of_values _, fun words => ?_⟩
    rw [List.singleton_append, readLevel_cons hcommand, hl.argument_long (by simp) hword,
      Level.longOption_attached l hname hrule hkind, Level.start, hl.settle]
    change (Level.recordOnce { values := values } rule.long (kind.read value) >>= _) = _
    rw [hread, Level.recordOnce_of_fresh hfresh]
    rfl
  | @apart name value rule kind given hname hrule hkind hread hhyphen =>
    obtain rfl : rule.long = name := by simpa using List.find?_some hrule
    have hword : ("--" ++ rule.long).toList = '-' :: '-' :: rule.long.toList := by simp
    have hname' : rule.long.toList ≠ [] := by simpa using hname.nonempty
    refine ⟨{ values := values, pending := some (.option rule kind (some value)) }, ⟨?_, rfl, rfl⟩,
      fun words => ?_⟩
    · change Level.recordOnce { values := values } rule.long (kind.read value) = _
      rw [hread, Level.recordOnce_of_fresh hfresh]
    · rw [List.cons_append, List.singleton_append, readLevel_cons hcommand,
        hl.argument_long hname' hword, Level.longOption_name l hname hrule, hkind]
      change (l.start rule kind none >>= _) = _
      rw [Level.start, hl.settle]
      change readLevel globals command options
        { values := values, pending := some (.option rule kind none) } (value :: words) = _
      rw [readLevel_cons hcommand, Level.argument_awaited hhyphen]
      rfl
  | @flag name rule hname hrule hkind =>
    obtain rfl : rule.long = name := by simpa using List.find?_some hrule
    have hword : ("--" ++ rule.long).toList = '-' :: '-' :: rule.long.toList := by simp
    have hname' : rule.long.toList ≠ [] := by simpa using hname.nonempty
    refine ⟨{ values := values ++ [(rule.long, .present)] }, Level.holds_of_values _,
      fun words => ?_⟩
    rw [List.singleton_append, readLevel_cons hcommand, hl.argument_long hname' hword,
      Level.longOption_name l hname hrule, hkind]
    change (l.apply rule >>= _) = _
    rw [Level.apply, hl.settle, hkind]
    change (Level.recordOnce { values := values } rule.long (.ok .present) >>= _) = _
    rw [Level.recordOnce_of_fresh hfresh]
    rfl

theorem name_ne_of_nodup {later : Values} {option earlier : String × GivenValue}
    (hnames : ((before ++ option :: later).map Prod.fst).Nodup) (hearlier : earlier ∈ before) :
    option.1 ≠ earlier.1 := by
  rw [List.map_append, List.map_cons, List.nodup_append] at hnames
  exact (hnames.2.2 _ (List.mem_map_of_mem hearlier) _ List.mem_cons_self).symm

/-- Options that are told apart are read one after the other, up to the end of the words. -/
theorem readLevel_flatten (hcommand : ∀ word, command.command? word = none)
    (hpieces : List.Forall₂ (Written options) values pieces) (hl : l.Holds before)
    (hnames : ((before ++ values).map Prod.fst).Nodup) :
    readLevel globals command options l pieces.flatten =
      (Level.close { values := before ++ values } command false).map fun values =>
        ⟨[], [values]⟩ := by
  induction hpieces generalizing l before with
  | nil =>
    rw [List.flatten_nil, List.append_nil, readLevel, hl.close]
    cases Level.close { values := before } command false with
    | error e => rfl
    | ok values => rfl
  | @cons option piece values pieces hpiece _ ih =>
    have hfresh : before.lookup option.1 = none := by
      refine List.lookup_eq_none_iff.mpr fun earlier hearlier => ?_
      simpa using name_ne_of_nodup hnames hearlier
    obtain ⟨l', hl', hread⟩ := readLevel_written globals hcommand hpiece hl hfresh
    rw [List.flatten_cons, hread, ih hl' (by simpa using hnames), List.append_assoc]
    rfl

end

/-! ### The commands about usage -/

/-- A word that names a command leads to the words of that command. -/
theorem readLevel_command {globals options : List OptionRule} {rule command : CommandRule}
    {word : String} {words : List String} {values : Values} {m : Matches}
    (hcommand : rule.command? word = some command) (hhelp : word ≠ CommandRule.helpName)
    (hclose : Level.close {} rule true = .ok values)
    (hbelow : readLevel globals command (command.inherit globals) {} words = .ok m) :
    readLevel globals rule options {} (word :: words) =
      .ok ⟨word :: m.path, values :: m.levels⟩ := by
  have hmay : Level.mayChoose {} = true := rfl
  rw [readLevel, hmay, if_pos rfl, hcommand]
  simp only [hhelp, decide_false, Bool.and_false, Bool.false_eq_true, if_false, hbelow, hclose]
  rfl

section
variable {values : Values} {pieces : List (List String)}

theorem read_usage {name : String} {command : CommandRule}
    (husage : (CommandRule.group "usage" [] [.leaf "get" rangeOptions [],
      .leaf "trim" (rangeOptions ++ [flag "remove-all"]) []]).command? name = some command)
    (hhelp : name ≠ CommandRule.helpName) (hcommand : ∀ word, command.command? word = none)
    (hpieces : List.Forall₂ (Written (command.inherit globalOptions)) values pieces)
    (hnames : (values.map Prod.fst).Nodup)
    (hclose : Level.close { values := values } command false = .ok values) :
    read globalOptions [versionOption] commandTree ("usage" :: name :: pieces.flatten) =
      .ok ⟨["usage", name], [[], [], values]⟩ := by
  have hleaf : readLevel globalOptions command (command.inherit globalOptions) {} pieces.flatten =
      .ok ⟨[], [values]⟩ := by
    rw [readLevel_flatten hcommand hpieces (Level.holds_of_values []) hnames, List.nil_append,
      hclose]
    rfl
  exact readLevel_command rfl (by decide) rfl (readLevel_command husage hhelp rfl hleaf)

/-- The text of an option at the end of a path of two commands. -/
theorem text?_eq_some_iff (hnames : (values.map Prod.fst).Nodup) {path : List String}
    {name s : String} :
    (Matches.mk path [[], [], values]).text? name = some s ↔ (name, .text s) ∈ values := by
  have hvalue : (Matches.mk path [[], [], values]).value? name = values.lookup name := by
    cases h : values.lookup name <;> simp [Matches.value?, h]
  rw [Matches.text?, hvalue]
  constructor
  · intro h
    split at h
    next s' hlookup =>
      obtain rfl := Option.some.inj h
      obtain ⟨earlier, later, rfl, -⟩ := List.lookup_eq_some_iff.mp hlookup
      simp
    next => simp at h
  · intro hmem
    obtain ⟨earlier, later, rfl⟩ := List.append_of_mem hmem
    have hfirst : ∀ p ∈ earlier, (name != p.1) = true := fun p hp => by
      simpa using name_ne_of_nodup hnames hp
    rw [List.lookup_eq_some_iff.mpr ⟨earlier, later, rfl, hfirst⟩]

/-- Whatever options there are, and however their values are written, the command that is read is
the one that the values say. -/
theorem ofWords_usageGet (hnames : (values.map Prod.fst).Nodup)
    (hpieces : List.Forall₂ (Written (rangeOptions ++ globalOptions)) values pieces) :
    let m : Matches := ⟨["usage", "get"], [[], [], values]⟩
    Invocation.ofWords ("usage" :: "get" :: pieces.flatten) =
      .ok ⟨m.overrides, .usageGet (m.text? "uid") (m.text? "start") (m.text? "end")⟩ := by
  intro m
  have h : read globalOptions [versionOption] commandTree ("usage" :: "get" :: pieces.flatten) =
      .ok m := read_usage rfl (by decide) (fun _ => rfl) hpieces hnames rfl
  rw [Invocation.ofWords, h]
  rfl

theorem ofWords_usageTrim (hnames : (values.map Prod.fst).Nodup)
    (hpieces : List.Forall₂ (Written (rangeOptions ++ [flag "remove-all"] ++ globalOptions))
      values pieces) :
    let m : Matches := ⟨["usage", "trim"], [[], [], values]⟩
    Invocation.ofWords ("usage" :: "trim" :: pieces.flatten) =
      .ok ⟨m.overrides, .usageTrim (m.text? "uid") (m.text? "start") (m.text? "end")
        (m.has "remove-all")⟩ := by
  intro m
  have h : read globalOptions [versionOption] commandTree ("usage" :: "trim" :: pieces.flatten) =
      .ok m := read_usage rfl (by decide) (fun _ => rfl) hpieces hnames rfl
  rw [Invocation.ofWords, h]
  rfl

end

example : Invocation.ofWords ["usage", "trim", "--remove-all", "--start=-1", "--uid", "u"] =
    .ok ⟨{}, .usageTrim (some "u") (some "-1") none true⟩ := by decide

/-- The user may be named in the word of the option or in a word of its own. -/
theorem written_uid (u : String) {options : List OptionRule}
    (hrule : options.find? (·.long = "uid") = some (textOption "uid")) :
    Written options ("uid", .text u) ["--uid=" ++ u] ∧
      (u.toList.head? ≠ some '-' → Written options ("uid", .text u) ["--uid", u]) := by
  have hname : IsOptionName "uid" := ⟨by decide, by decide⟩
  exact ⟨.joined hname hrule rfl rfl, fun hhead => .apart hname hrule rfl rfl (.inr hhead)⟩

end GatewayAdmin.CommandLine
