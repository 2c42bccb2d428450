import GatewayAdmin.Json.Draft
import GatewayAdmin.Json.Value
import GatewayAdmin.Text.Utf8
/-! Reading drafts. What is read is held to more than the grammar: strings denote texts, numbers
are representable, and containers nest to a limit. -/
namespace GatewayAdmin.Json

abbrev Read (α : Type) := Except Fault α

/-- Containers within containers that a text may have, where it is read and not passed over. -/
def maxDepth : Nat := 127

def isHighSurrogate (u : Nat) : Bool := 0xD800 ≤ u && u ≤ 0xDBFF

def isLowSurrogate (u : Nat) : Bool := 0xDC00 ≤ u && u ≤ 0xDFFF

def joinSurrogates (high low : Nat) : Char :=
  Char.ofNat (0x10000 + (high - 0xD800) * 0x400 + (low - 0xDC00))

/-- The octets of a string so far, newest first, and the first surrogate of a pair that waits for
the second. -/
structure Assembly where
  octets : List UInt8
  high : Option Nat

namespace Assembly

def pushChar (a : Assembly) (c : Char) : Assembly :=
  ⟨(String.utf8EncodeChar c).reverse ++ a.octets, none⟩

def push (a : Assembly) (p : StringPiece) : Read Assembly :=
  match a.high, p with
  | none, .octet b => .ok ⟨b :: a.octets, none⟩
  | none, .unit u =>
    if isLowSurrogate u then .error .malformed
    else if isHighSurrogate u then .ok ⟨a.octets, some u⟩
    else .ok (a.pushChar (Char.ofNat u))
  | some high, .unit u =>
    if isLowSurrogate u then .ok (a.pushChar (joinSurrogates high u)) else .error .malformed
  | some _, .octet _ => .error .malformed

end Assembly

/-- A string that was cut short has its own fault, after those of its parts. -/
def StringText.read (s : StringText) : Read String := do
  let a ← s.pieces.foldlM Assembly.push ⟨[], none⟩
  match s.fault with
  | some f => .error f
  | none =>
    if a.high.isSome then .error .malformed
    else match Text.ofUtf8? a.octets.reverse with
      | some text => .ok text
      | none => .error .malformed

def NumberText.read (n : NumberText) : Read Number :=
  match n.number? with
  | some number => .ok number
  | none => .error .malformed

/-- The fault of a draft that is not of the wanted kind: a string or a number is read first. -/
def Draft.mismatch (d : Draft) : Fault :=
  match d with
  | string s => match s.read with
    | .error f => f
    | .ok _ => .mismatch
  | number n => match n.read with
    | .error f => f
    | .ok _ => .mismatch
  | broken f => f
  | _ => .mismatch

def Draft.readString : Draft → Read String
  | string s => s.read
  | d => .error d.mismatch

def Draft.readBool : Draft → Read Bool
  | bool b => .ok b
  | d => .error d.mismatch

def Draft.readNumber : Draft → Read Number
  | number n => n.read
  | d => .error d.mismatch

/-- Integers without fraction and exponent, within bounds. -/
def Draft.readInteger (low high : Int) (d : Draft) : Read Int := do
  match ← d.readNumber with
  | .integer n => if low ≤ n ∧ n ≤ high then .ok n else .error .mismatch
  | .float _ => .error .mismatch

/-- What a reader finds where a container ends. -/
def endOf (fault : Option Fault) : Read Unit :=
  match fault with
  | some f => .error f
  | none => .ok ()

/-- Keeps members sorted by name; a later member takes the place of an earlier one. -/
def insertMember {α : Type} (name : String) (value : α) : List (String × α) → List (String × α)
  | [] => [(name, value)]
  | (k, v) :: rest =>
    if name < k then (name, value) :: (k, v) :: rest
    else if name = k then (name, value) :: rest
    else (k, v) :: insertMember name value rest

def readItems {α : Type} (read : Draft → Read α) (items : List Draft) (fault : Option Fault) :
    Read (List α) := do
  let values ← items.mapM read
  endOf fault
  return values

/-- The members by name, the last of a repeated name. -/
def readMembers {α : Type} (read : Draft → Read α) (members : List (StringText × Draft))
    (fault : Option Fault) : Read (List (String × α)) := do
  let values ← members.foldlM (fun acc m => do
    let name ← m.1.read
    return insertMember name (← read m.2) acc) []
  endOf fault
  return values

/-- Any value, with at most `depth` containers around each other. -/
def Draft.readValue : (depth : Nat) → Draft → Read Value
  | _, null => .ok .null
  | _, bool b => .ok (.bool b)
  | _, number n => do return .number (← n.read)
  | _, string s => do return .string (← s.read)
  | _, broken f => .error f
  | 0, array .. | 0, object .. => .error .malformed
  | depth + 1, array items fault => do return .array (← readItems (readValue depth) items fault)
  | depth + 1, object members fault => do
    return .object (← readMembers (readValue depth) members fault)

/-- A whole text: nothing but white space may follow its value. -/
def readText {α : Type} (read : Draft → Read α) (text : List UInt8) : Read α := do
  let doc := document text
  let value ← read doc.draft
  if doc.clean then .ok value else .error .malformed

end GatewayAdmin.Json
