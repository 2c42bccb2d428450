import GatewayAdmin.Text.Numeral
/-! Command lines: a tree of commands, the options and words that each of them takes, and how a
list of words is read by it. An option's value is looked at when the next thing is read, so of two
errors the one that is noticed first is reported. -/
namespace GatewayAdmin.CommandLine

inductive UsageError where
  | displayHelp
  | displayVersion
  | helpOnMissingArgument
  | missingSubcommand
  | invalidSubcommand
  | unknownArgument
  | missingRequiredArgument
  | invalidValue
  | valueValidation
  | tooManyValues
  | argumentConflict
deriving DecidableEq

def UsageError.message : UsageError → String
  | displayHelp | helpOnMissingArgument => "see the table of commands"
  | displayVersion => "version 0.1.0"
  | missingSubcommand => "a subcommand is missing"
  | invalidSubcommand => "unknown subcommand"
  | unknownArgument => "unexpected argument"
  | missingRequiredArgument => "a required argument is missing"
  | invalidValue => "a value is missing or not allowed"
  | valueValidation => "a value is no number, or out of range"
  | tooManyValues => "a flag takes no value"
  | argumentConflict => "an argument is given more than once"

inductive GivenValue where
  | present
  | text (s : String)
  | integer (n : Int)
  | switch (b : Bool)
deriving DecidableEq

inductive ValueKind where
  | text
  | int32
  | int64
  | switch
deriving DecidableEq

def ValueKind.read (kind : ValueKind) (s : String) : Except UsageError GivenValue :=
  match kind with
  | text => .ok (.text s)
  | int32 =>
    match Text.signed? (-2147483648) 2147483647 s with
    | some n => .ok (.integer n)
    | none => .error .valueValidation
  | int64 =>
    match Text.signed? (-9223372036854775808) 9223372036854775807 s with
    | some n => .ok (.integer n)
    | none => .error .valueValidation
  | switch =>
    if s = "true" then .ok (.switch true)
    else if s = "false" then .ok (.switch false)
    else .error .invalidValue

/-- What an option does once it is read. -/
inductive OptionKind where
  | value (kind : ValueKind)
  | flag
  | help
  | version
deriving DecidableEq

/-- An option under its long name. With `hyphens` its value may begin like an option. -/
structure OptionRule where
  long : String
  kind : OptionKind
  short : Option Char := none
  hyphens : Bool := false
  required : Bool := false
deriving DecidableEq

/-- A command with options and words of its own, or with commands below it. -/
inductive CommandRule where
  | leaf (name : String) (options : List OptionRule) (words : List String)
  | group (name : String) (options : List OptionRule) (commands : List CommandRule)

namespace CommandRule

def name : CommandRule → String
  | leaf name .. => name
  | group name .. => name

def options : CommandRule → List OptionRule
  | leaf _ options _ => options
  | group _ options _ => options

def words : CommandRule → List String
  | leaf _ _ words => words
  | group .. => []

def commands : CommandRule → List CommandRule
  | leaf .. => []
  | group _ _ commands => commands

def hasCommands (r : CommandRule) : Bool := !r.commands.isEmpty

def helpName : String := "help"

/-- A command with commands below it has a help command too, which has none. -/
def command? (r : CommandRule) (word : String) : Option CommandRule :=
  if r.hasCommands && word = helpName then some (.leaf helpName [] [])
  else r.commands.find? (·.name = word)

/-- Options that hold at every level are handed down, except where a name is taken. -/
def inherit (globals : List OptionRule) (r : CommandRule) : List OptionRule :=
  r.options ++ globals.filter fun g =>
    !(r.options.any (·.long = g.long)) && !r.words.contains g.long

end CommandRule

/-- The values given at one level, by the names of their rules. -/
abbrev Values := List (String × GivenValue)

/-- The values of every level, outermost first, and the commands chosen on the way. -/
structure Matches where
  path : List String
  levels : List Values
deriving DecidableEq

namespace Matches

/-- The value given at the deepest level. -/
def value? (m : Matches) (name : String) : Option GivenValue :=
  m.levels.reverse.findSome? (·.lookup name)

def text? (m : Matches) (name : String) : Option String :=
  match m.value? name with
  | some (.text s) => some s
  | _ => none

def integer? (m : Matches) (name : String) : Option Int :=
  match m.value? name with
  | some (.integer n) => some n
  | _ => none

def switch? (m : Matches) (name : String) : Option Bool :=
  match m.value? name with
  | some (.switch b) => some b
  | _ => none

def has (m : Matches) (name : String) : Bool := (m.value? name).isSome

/-- A word that its rule requires. -/
def word (m : Matches) (name : String) : String := (m.text? name).getD ""

end Matches

/-- Something whose value is not settled yet: an option that may still wait for it, or a word. -/
inductive Pending where
  | option (rule : OptionRule) (kind : ValueKind) (value : Option String)
  | word (name value : String)
deriving DecidableEq

/-- The reading of one level. Behind `--` there are only words. -/
structure Level where
  values : Values := []
  pending : Option Pending := none
  wordsRead : Nat := 0
  wordsOnly : Bool := false
deriving DecidableEq

namespace Level

def record (l : Level) (name : String) (value : GivenValue) : Level :=
  { l with values := l.values ++ [(name, value)] }

def recordOnce (l : Level) (name : String) (value : Except UsageError GivenValue) :
    Except UsageError Level :=
  if (l.values.lookup name).isSome then .error .argumentConflict
  else return l.record name (← value)

/-- The value of an option, once it is complete. -/
def settle (l : Level) : Except UsageError Level :=
  match l.pending with
  | none => .ok l
  | some (.option _ _ none) => .error .invalidValue
  | some (.option rule kind (some value)) =>
    { l with pending := none }.recordOnce rule.long (kind.read value)
  | some (.word name value) => .ok ({ l with pending := none }.record name (.text value))

/-- The option that waits for its value. -/
def awaiting? (l : Level) : Option (OptionRule × ValueKind) :=
  match l.pending with
  | some (.option rule kind none) => some (rule, kind)
  | _ => none

def takesHyphens (l : Level) : Bool := l.awaiting?.any (·.1.hyphens)

/-- An option that takes no value. -/
def apply (l : Level) (rule : OptionRule) : Except UsageError Level := do
  let l ← l.settle
  match rule.kind with
  | .help => .error .displayHelp
  | .version => .error .displayVersion
  | _ => l.recordOnce rule.long (.ok .present)

/-- An option that takes a value, with the value that is attached to it if there is one. -/
def start (l : Level) (rule : OptionRule) (kind : ValueKind) (attached : Option String) :
    Except UsageError Level := do
  let l ← l.settle
  match attached with
  | some value => l.recordOnce rule.long (kind.read value)
  | none => return { l with pending := some (.option rule kind none) }

def longOption (l : Level) (options : List OptionRule) (cs : List Char) :
    Except UsageError Level :=
  let name := String.ofList (cs.takeWhile (· ≠ '='))
  let attached := match cs.dropWhile (· ≠ '=') with
    | _ :: r => some (String.ofList r)
    | [] => none
  match options.find? (·.long = name) with
  | none => .error .unknownArgument
  | some rule =>
    match rule.kind with
    | .value kind => l.start rule kind attached
    | _ => if attached.isSome then .error .tooManyValues else l.apply rule

/-- Flags may share one hyphen; the first option that takes a value takes what follows it. -/
def shortOptions (options : List OptionRule) : List Char → Level → Except UsageError Level
  | [], l => .ok l
  | c :: r, l =>
    match options.find? (·.short = some c) with
    | none => .error .unknownArgument
    | some rule =>
      match rule.kind with
      | .value kind =>
        let attached := match r with
          | [] => none
          | '=' :: r => some (String.ofList r)
          | r => some (String.ofList r)
        l.start rule kind attached
      | _ => do shortOptions options r (← l.apply rule)

/-- A word in its place among the words of the command. -/
def positional (l : Level) (rule : CommandRule) (word : String) : Except UsageError Level :=
  match rule.words[l.wordsRead]? with
  | some name => do
    let l ← l.settle
    return { l with pending := some (.word name word), wordsRead := l.wordsRead + 1 }
  | none =>
    if rule.hasCommands && !(l.wordsOnly && (rule.command? word).isSome) then
      .error .invalidSubcommand
    else .error .unknownArgument

/-- The value of the option that waits for one, or else a word. -/
def plain (l : Level) (rule : CommandRule) (word : String) : Except UsageError Level :=
  match l.awaiting? with
  | some (option, kind) =>
    if l.wordsOnly then l.positional rule word
    else .ok { l with pending := some (.option option kind (some word)) }
  | none => l.positional rule word

def argument (l : Level) (rule : CommandRule) (options : List OptionRule) (word : String) :
    Except UsageError Level :=
  if l.wordsOnly || l.takesHyphens then l.plain rule word
  else match word.toList with
    | ['-', '-'] => .ok { l with wordsOnly := true }
    | '-' :: '-' :: cs => l.longOption options cs
    | '-' :: c :: cs => shortOptions options (c :: cs) l
    | _ => l.plain rule word

/-- Does this word choose a command, rather than being a value? -/
def mayChoose (l : Level) : Bool := !l.wordsOnly && l.awaiting?.isNone

def missesRequired (l : Level) (rule : CommandRule) : Bool :=
  let given := l.values.map Prod.fst
  rule.words.any (!given.contains ·) ||
    (rule.options.filter (·.required)).any (!given.contains ·.long)

/-- The end of the words, or of those before the command chosen. -/
def close (l : Level) (rule : CommandRule) (chosen : Bool) : Except UsageError Values := do
  let l ← l.settle
  if rule.hasCommands && !chosen then
    if l.values.isEmpty then .error .helpOnMissingArgument else .error .missingSubcommand
  else if l.missesRequired rule then .error .missingRequiredArgument
  else return l.values

end Level

/-- The words after a help command name commands, each below the one before. -/
def readHelp (rule : CommandRule) : List String → UsageError
  | [] => .displayHelp
  | word :: words =>
    match rule.command? word with
    | some rule => readHelp rule words
    | none => .invalidSubcommand

/-- Reads words at one level, and below it once a command is chosen. -/
def readLevel (globals : List OptionRule) (rule : CommandRule) (options : List OptionRule)
    (l : Level) : List String → Except UsageError Matches
  | [] => do return ⟨[], [← l.close rule false]⟩
  | word :: words =>
    match (if l.mayChoose then rule.command? word else none) with
    | some command =>
      if rule.hasCommands && word = CommandRule.helpName then .error (readHelp rule words)
      else do
        let below ← readLevel globals command (command.inherit globals) {} words
        return ⟨word :: below.path, (← l.close rule true) :: below.levels⟩
    | none => do
      readLevel globals rule options (← l.argument rule options word) words

/-- The globals of the outermost command hold at every level. -/
def read (globals own : List OptionRule) (root : CommandRule) (words : List String) :
    Except UsageError Matches :=
  readLevel globals root (root.options ++ own ++ globals) {} words

end GatewayAdmin.CommandLine
