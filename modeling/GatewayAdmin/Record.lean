import GatewayAdmin.Instant
import GatewayAdmin.Json.Reader
/-! Records in JSON texts. A codec says how one type is written and read; a record is described
field by field, and from that one description it is both written and read. -/
namespace GatewayAdmin

open Json

/-- Reading takes the number of containers that may still be entered. -/
structure Codec (α : Type) where
  write : α → Value
  read : Nat → Draft → Read α

namespace Codec

def text : Codec String := ⟨.string, fun _ d => d.readString⟩

def flag : Codec Bool := ⟨.bool, fun _ d => d.readBool⟩

def int32 : Codec Int32 :=
  ⟨fun n => .integer n.toInt,
    fun _ d => return Int32.ofInt (← d.readInteger (-2147483648) 2147483647)⟩

def int64 : Codec Int64 :=
  ⟨fun n => .integer n.toInt,
    fun _ d => return Int64.ofInt (← d.readInteger (-9223372036854775808) 9223372036854775807)⟩

def uint64 : Codec UInt64 :=
  ⟨fun n => .integer n.toNat,
    fun _ d => return UInt64.ofNat (← d.readInteger 0 18446744073709551615).toNat⟩

/-- Any value at all, kept as it is. -/
def free : Codec Value := ⟨id, fun depth d => d.readValue depth⟩

def readList {α : Type} (item : Codec α) : Nat → Draft → Read (List α)
  | depth + 1, .array items fault => readItems (item.read depth) items fault
  | 0, .array .. | 0, .object .. => .error .malformed
  | _, d => .error d.mismatch

def list {α : Type} (item : Codec α) : Codec (List α) :=
  ⟨fun xs => .array (xs.map item.write), readList item⟩

end Codec

/-- A field of the record type `ρ` under its name in JSON texts. -/
structure Field (ρ : Type) where
  name : String
  write : ρ → Option Value
  read : Nat → Draft → ρ → Read ρ

namespace Field

variable {ρ α : Type}

/-- A field that may be absent; `null` is another way to write that. -/
def optional (name : String) (codec : Codec α) (get : ρ → Option α) (set : ρ → Option α → ρ) :
    Field ρ where
  name := name
  write r := (get r).map codec.write
  read depth d r :=
    match d with
    | .null => .ok (set r none)
    | d => return set r (some (← codec.read depth d))

/-- A field that always has a value. -/
def required (name : String) (codec : Codec α) (get : ρ → α) (set : ρ → α → ρ) : Field ρ where
  name := name
  write r := some (codec.write (get r))
  read depth d r := return set r (← codec.read depth d)

/-- A field that is read and never written. -/
def unwritten (f : Field ρ) : Field ρ := { f with write := fun _ => none }

end Field

/-- The fields in their order, and the record whose fields are all at their defaults. -/
structure Schema (ρ : Type) where
  fields : List (Field ρ)
  blank : ρ

namespace Schema

variable {ρ : Type}

def write (s : Schema ρ) (r : ρ) : Value :=
  .object (s.fields.filterMap fun f => (f.write r).map (f.name, ·))

def field? (s : Schema ρ) (name : String) : Option (Field ρ) := s.fields.find? (·.name = name)

/-- The record so far, and the names of the fields that were read. -/
structure Progress (ρ : Type) where
  record : ρ
  seen : List String

/-- One member of an object. A field may be given once; a member of another name is passed over. -/
def readMember (s : Schema ρ) (depth : Nat) (p : Progress ρ) (m : StringText × Draft) :
    Read (Progress ρ) := do
  let name ← m.1.read
  match s.field? name with
  | none => .ok p
  | some f =>
    if p.seen.contains name then .error .mismatch
    else return ⟨← f.read depth m.2 p.record, name :: p.seen⟩

def readObject (s : Schema ρ) (depth : Nat) (members : List (StringText × Draft))
    (fault : Option Fault) : Read ρ := do
  let p ← members.foldlM (s.readMember depth) ⟨s.blank, []⟩
  endOf fault
  return p.record

/-- Fields by position; there may be fewer items than fields, and no more. -/
def readPositions (depth : Nat) (fault : Option Fault) :
    List (Field ρ) → List Draft → ρ → Read ρ
  | _, [], r => do endOf fault; return r
  | [], _ :: _, _ => .error .malformed
  | f :: fields, d :: items, r => do readPositions depth fault fields items (← f.read depth d r)

def read (s : Schema ρ) : Nat → Draft → Read ρ
  | depth + 1, .object members fault => s.readObject depth members fault
  | depth + 1, .array items fault => readPositions depth fault s.fields items s.blank
  | 0, .array .. | 0, .object .. => .error .malformed
  | _, d => .error d.mismatch

def codec (s : Schema ρ) : Codec ρ := ⟨s.write, s.read⟩

end Schema

namespace Codec

variable {α : Type}

def decode (c : Codec α) (body : List UInt8) : Read α := readText (c.read maxDepth) body

def encode (c : Codec α) (x : α) : String := (c.write x).compact

end Codec
end GatewayAdmin
