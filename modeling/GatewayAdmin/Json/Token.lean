import GatewayAdmin.Text.Numeral
/-! The tokens of a JSON text. Strings and numbers are kept as they are written: what they must
satisfy depends on who reads them, and a value that is passed over needs only its grammar. -/
namespace GatewayAdmin.Json

/-- Why a text is no value of the wanted kind: it breaks the grammar, it stops too early, or it is
a value of another kind. -/
inductive Fault where
  | malformed
  | truncated
  | mismatch
deriving DecidableEq, Repr

def Fault.name : Fault → String
  | malformed => "malformed"
  | truncated => "truncated"
  | mismatch => "of another kind"

/-- An octet of a string, or a UTF-16 unit from a `\u` escape. -/
inductive StringPiece where
  | octet (b : UInt8)
  | unit (u : Nat)
deriving DecidableEq

/-- A string up to its closing quote, or up to the fault that ended it. -/
structure StringText where
  pieces : List StringPiece
  fault : Option Fault
deriving DecidableEq

/-- The digits of a number, the fraction and the exponent where they are written. -/
structure NumberText where
  negative : Bool
  whole : List Nat
  fraction : Option (List Nat) := none
  exponent : Option (Bool × List Nat) := none
deriving DecidableEq

/-- A `broken` token starts like a number or a word and does not end like one. -/
inductive Token where
  | openObject
  | closeObject
  | openArray
  | closeArray
  | colon
  | comma
  | null
  | bool (b : Bool)
  | number (n : NumberText)
  | string (s : StringText)
  | broken (f : Fault)
deriving DecidableEq

/-- The place in a number, with the digits so far, newest first. -/
inductive NumberPlace where
  | minus
  | zero (negative : Bool)
  | whole (negative : Bool) (digits : List Nat)
  | point (n : NumberText)
  | fraction (n : NumberText) (digits : List Nat)
  | mark (n : NumberText)
  | sign (n : NumberText) (negative : Bool)
  | exponent (n : NumberText) (negative : Bool) (digits : List Nat)

/-- The number that ends here, if one can. -/
def NumberPlace.finish? : NumberPlace → Option NumberText
  | zero negative => some ⟨negative, [0], none, none⟩
  | whole negative digits => some ⟨negative, digits.reverse, none, none⟩
  | fraction n digits => some { n with fraction := some digits.reverse }
  | exponent n negative digits => some { n with exponent := some (negative, digits.reverse) }
  | _ => none

def digit? (b : UInt8) : Option Nat :=
  if 0x30 ≤ b ∧ b ≤ 0x39 then some (b.toNat - 0x30) else none

/-- What an octet does to a number: it goes on, the number was over, or it is no number. -/
inductive NumberStep where
  | next (place : NumberPlace)
  | over (n : NumberText)
  | bad

/-- After the digits of the whole part or of the fraction. -/
def stepAfterDigits (pointAllowed : Bool) (n : NumberText) (b : UInt8) : NumberStep :=
  if b = 0x2E && pointAllowed then .next (.point n)
  else if b = 0x65 || b = 0x45 then .next (.mark n)
  else .over n

def NumberPlace.step (p : NumberPlace) (b : UInt8) : NumberStep :=
  match p, digit? b with
  | minus, some 0 => .next (zero true)
  | minus, some d => .next (whole true [d])
  | minus, none => .bad
  | zero _, some _ => .bad
  | zero negative, none => stepAfterDigits true ⟨negative, [0], none, none⟩ b
  | whole negative digits, some d => .next (whole negative (d :: digits))
  | whole negative digits, none => stepAfterDigits true ⟨negative, digits.reverse, none, none⟩ b
  | point n, some d => .next (fraction n [d])
  | point _, none => .bad
  | fraction n digits, some d => .next (fraction n (d :: digits))
  | fraction n digits, none => stepAfterDigits false { n with fraction := some digits.reverse } b
  | mark n, some d => .next (exponent n false [d])
  | mark n, none =>
    if b = 0x2B then .next (sign n false) else if b = 0x2D then .next (sign n true) else .bad
  | sign n negative, some d => .next (exponent n negative [d])
  | sign _ _, none => .bad
  | exponent n negative digits, some d => .next (exponent n negative (d :: digits))
  | exponent n negative digits, none => .over { n with exponent := some (negative, digits.reverse) }

/-- Where a scan stands: between tokens, or inside one of which the part read is kept. -/
inductive Place where
  | between
  | word (rest : List UInt8) (token : Token)
  | number (place : NumberPlace)
  | string (pieces : List StringPiece)
  | escape (pieces : List StringPiece)
  | hex (pieces : List StringPiece) (digits : List UInt8)
  | stopped (f : Fault)

/-- The tokens found so far, newest first. -/
structure Scan where
  tokens : List Token
  place : Place

namespace Scan

def start : Scan := ⟨[], .between⟩

def isSpace (b : UInt8) : Bool := b = 0x20 || b = 0x09 || b = 0x0A || b = 0x0D

def push (s : Scan) (t : Token) : Scan := ⟨t :: s.tokens, .between⟩

def stop (s : Scan) (f : Fault) : Scan := ⟨.broken f :: s.tokens, .stopped f⟩

def stopString (s : Scan) (pieces : List StringPiece) (f : Fault) : Scan :=
  ⟨.string ⟨pieces.reverse, some f⟩ :: s.tokens, .stopped f⟩

def enter (s : Scan) (place : Place) : Scan := { s with place := place }

/-- An octet between tokens. -/
def begin (s : Scan) (b : UInt8) : Scan :=
  if isSpace b then s.enter .between
  else if b = 0x7B then s.push .openObject
  else if b = 0x7D then s.push .closeObject
  else if b = 0x5B then s.push .openArray
  else if b = 0x5D then s.push .closeArray
  else if b = 0x3A then s.push .colon
  else if b = 0x2C then s.push .comma
  else if b = 0x22 then s.enter (.string [])
  else if b = 0x6E then s.enter (.word [0x75, 0x6C, 0x6C] .null)
  else if b = 0x74 then s.enter (.word [0x72, 0x75, 0x65] (.bool true))
  else if b = 0x66 then s.enter (.word [0x61, 0x6C, 0x73, 0x65] (.bool false))
  else if b = 0x2D then s.enter (.number .minus)
  else match digit? b with
    | some 0 => s.enter (.number (.zero false))
    | some d => s.enter (.number (.whole false [d]))
    | none => s.stop .malformed

def escaped? (b : UInt8) : Option UInt8 :=
  if b = 0x22 || b = 0x5C || b = 0x2F then some b
  else if b = 0x62 then some 0x08
  else if b = 0x66 then some 0x0C
  else if b = 0x6E then some 0x0A
  else if b = 0x72 then some 0x0D
  else if b = 0x74 then some 0x09
  else none

/-- The four digits of an escape are looked at together. -/
def unit? (digits : List UInt8) : Option Nat :=
  digits.foldl (fun acc b => acc.bind fun n =>
    (Text.hexValue? (Char.ofNat b.toNat)).map (16 * n + ·)) (some 0)

def stepHex (s : Scan) (pieces : List StringPiece) (digits : List UInt8) : Scan :=
  if digits.length < 4 then s.enter (.hex pieces digits)
  else match unit? digits.reverse with
    | some u => s.enter (.string (.unit u :: pieces))
    | none => s.stopString pieces .malformed

def step (s : Scan) (b : UInt8) : Scan :=
  match s.place with
  | .between => s.begin b
  | .stopped _ => s
  | .word [] token => (s.push token).begin b
  | .word (c :: rest) token =>
    if b ≠ c then s.stop .malformed
    else if rest.isEmpty then s.push token
    else s.enter (.word rest token)
  | .number p =>
    match p.step b with
    | .next p => s.enter (.number p)
    | .over n => (s.push (.number n)).begin b
    | .bad => s.stop .malformed
  | .string pieces =>
    if b = 0x22 then s.push (.string ⟨pieces.reverse, none⟩)
    else if b = 0x5C then s.enter (.escape pieces)
    else if b < 0x20 then s.stopString pieces .malformed
    else s.enter (.string (.octet b :: pieces))
  | .escape pieces =>
    if b = 0x75 then s.enter (.hex pieces [])
    else match escaped? b with
      | some e => s.enter (.string (.octet e :: pieces))
      | none => s.stopString pieces .malformed
  | .hex pieces digits => s.stepHex pieces (b :: digits)

/-- At the end of the text. A number that is cut off counts as malformed for a reader who passes
over it, which is why the scan stops as `malformed` behind a token broken as `truncated`. -/
def finish (s : Scan) : Scan :=
  match s.place with
  | .between => s.enter (.stopped .truncated)
  | .stopped _ => s
  | .word _ _ => s.stop .truncated
  | .number p =>
    match p.finish? with
    | some n => (s.push (.number n)).enter (.stopped .truncated)
    | none => ⟨.broken .truncated :: s.tokens, .stopped .malformed⟩
  | .string pieces | .escape pieces | .hex pieces _ => s.stopString pieces .truncated

end Scan

/-- The tokens of a text, and the fault of a reader who wants more of them. -/
structure Tokens where
  list : List Token
  fault : Fault

def tokens (text : List UInt8) : Tokens :=
  let s := (text.foldl Scan.step Scan.start).finish
  ⟨s.tokens.reverse, match s.place with
    | .stopped f => f
    | _ => .truncated⟩

end GatewayAdmin.Json
