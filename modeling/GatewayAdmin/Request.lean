import GatewayAdmin.Uri
/-! Requests as they are sent, without a body: a method, a URI and an ordered collection of header
fields. -/
namespace GatewayAdmin

/-- The characters of a token: methods and header names are made of them. -/
def isTokenChar (c : Char) : Bool :=
  ('a' ≤ c && c ≤ 'z') || ('A' ≤ c && c ≤ 'Z') || ('0' ≤ c && c ≤ '9') ||
    "!#$%&'*+-.^_|~".toList.contains c || c.toNat = 0x60

def isToken (s : String) : Bool := !s.toList.isEmpty && s.toList.all isTokenChar

def isHeaderValueChar (c : Char) : Bool := (0x20 ≤ c.toNat && c.toNat ≠ 0x7F) || c = '\t'

def isHeaderValue (s : String) : Bool := s.toList.all isHeaderValueChar

def maxHeaderNameLength : Nat := 65535

/-- Names compare without regard to case, so they are kept in lower case. -/
def headerName? (s : String) : Option String :=
  if isToken s && s.length ≤ maxHeaderNameLength then
    some (String.ofList (s.toList.map Char.toLower))
  else none

/-- A value is any octets that a request came with; those that are set here are texts. -/
structure Headers where
  fields : List (String × List UInt8)
deriving DecidableEq, Inhabited

namespace Headers

def empty : Headers := ⟨[]⟩

def names (h : Headers) : List String := h.fields.map Prod.fst

def values (h : Headers) (name : String) : List (List UInt8) :=
  (h.fields.filter (·.1 = name)).map Prod.snd

def get? (h : Headers) (name : String) : Option (List UInt8) := (h.values name).head?

def append (h : Headers) (name : String) (value : List UInt8) : Headers :=
  ⟨h.fields ++ [(name, value)]⟩

def erase (h : Headers) (name : String) : Headers := ⟨h.fields.filter (·.1 ≠ name)⟩

/-- The one value given takes the place of all values of that name. -/
def set (h : Headers) (name : String) (value : List UInt8) : Headers :=
  (h.erase name).append name value

/-- By name; the values of one name stay in their order. -/
def sorted (h : Headers) : List (String × List UInt8) :=
  h.fields.mergeSort fun a b => a.1 ≤ b.1

@[simp] theorem values_empty (name : String) : empty.values name = [] := rfl

theorem values_append (h : Headers) (name other : String) (value : List UInt8) :
    (h.append name value).values other =
      h.values other ++ if name = other then [value] else [] := by
  by_cases hn : name = other <;> simp [values, append, hn]

theorem values_erase (h : Headers) (name other : String) :
    (h.erase name).values other = if other = name then [] else h.values other := by
  by_cases hn : other = name
  · subst hn; simp [values, erase, List.filter_filter]
  · simp only [values, erase, List.filter_filter, hn, if_false]
    congr 1
    apply List.filter_congr
    intro f _
    by_cases hf : f.1 = other <;> simp [hf, hn]

theorem values_set (h : Headers) (name other : String) (value : List UInt8) :
    (h.set name value).values other = if other = name then [value] else h.values other := by
  rw [set, values_append, values_erase]
  by_cases hn : other = name
  · subst hn; simp
  · simp [hn, Ne.symm hn]

end Headers
structure Method where
  name : String
  isToken : isToken name = true
deriving DecidableEq

namespace Method

def ofName? (s : String) : Option Method :=
  if h : GatewayAdmin.isToken s = true then some ⟨s, h⟩ else none

def get : Method := ⟨"GET", by decide⟩

def put : Method := ⟨"PUT", by decide⟩

def post : Method := ⟨"POST", by decide⟩

def delete : Method := ⟨"DELETE", by decide⟩

end Method

structure Request where
  method : Method
  uri : Uri
  headers : Headers
deriving DecidableEq

end GatewayAdmin
