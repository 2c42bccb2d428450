import GatewayAdmin.Percent
import GatewayAdmin.Text.Numeral
import GatewayAdmin.Text.Cut
/-! The arguments of an admin call, an ordered list of named values, and its URL. Every operation
lists all that it knows of; the values that are absent stay in the list and out of the query. What
an operation needs is checked while the list is made. -/
namespace GatewayAdmin

/-- Types with a written form in a query; an empty text counts as absent. -/
class ArgumentText (α : Type) where
  text? : α → Option String

namespace ArgumentText

instance : ArgumentText String := ⟨fun s => if s = "" then none else some s⟩

instance : ArgumentText Bool := ⟨fun b => some (if b then "true" else "false")⟩

instance : ArgumentText Int := ⟨fun n => some (Text.integer n)⟩

instance : ArgumentText Int32 := ⟨fun n => some (Text.integer n.toInt)⟩

instance : ArgumentText Int64 := ⟨fun n => some (Text.integer n.toInt)⟩

instance {α : Type} [ArgumentText α] : ArgumentText (Option α) := ⟨fun x => x.bind text?⟩

end ArgumentText

structure Arguments where
  pairs : List (String × Option String)
deriving DecidableEq, Repr

namespace Arguments

def empty : Arguments := ⟨[]⟩

def add {α : Type} [ArgumentText α] (q : Arguments) (name : String) (value : α) : Arguments :=
  ⟨q.pairs ++ [(name, ArgumentText.text? value)]⟩

/-- Every admin call asks for a reply in JSON. -/
def admin : Arguments := empty.add "format" "json"

def present (q : Arguments) : List (String × String) :=
  q.pairs.filterMap fun p => p.2.map (p.1, ·)

def getAll (q : Arguments) (name : String) : List String :=
  (q.present.filter (·.1 = name)).map Prod.snd

def get? (q : Arguments) (name : String) : Option String := (q.getAll name).head?

def size (q : Arguments) : Nat := q.pairs.length

def pairChars (p : String × String) : List Char :=
  Percent.encode (Text.utf8 p.1) ++ '=' :: Percent.encode (Text.utf8 p.2)

/-- The query of a URI, without a question mark. -/
def encode (q : Arguments) : String :=
  String.ofList (['&'].intercalate (q.present.map pairChars))

end Arguments

inductive ArgumentError where
  | missingField (name : String)
  | invalidSubuserAccess (value : String)
  | unsupportedKeyType (value : String)
deriving DecidableEq, Repr

def ArgumentError.message : ArgumentError → String
  | missingField name => name ++ " is required"
  | invalidSubuserAccess value => "invalid subuser access level '" ++ value ++ "'"
  | unsupportedKeyType value => "unsupported key type '" ++ value ++ "'"

abbrev Validated (α : Type) := Except ArgumentError α

def isGiven (value : Option String) : Bool := value.any (· ≠ "")

/-- An empty text is as good as none. -/
def require (field : String) (value : Option String) : Validated String :=
  match value.filter (· ≠ "") with
  | some v => .ok v
  | none => .error (.missingField field)

/-! ### URLs -/

namespace AdminUrl

def root : String := "/admin"

/-- Arguments go after `?`, or after `&` when the resource has a query of its own. -/
def separator (resource query : String) : String :=
  if query = "" then "" else if resource.toList.contains '?' then "&" else "?"

def ofParts (endpoint resource query : String) : String :=
  endpoint ++ root ++ resource ++ separator resource query ++ query

end AdminUrl
end GatewayAdmin
