import GatewayAdmin.Json.Number
import GatewayAdmin.Json.Shortest
/-! JSON values, and their compact and indented texts. Members are written in the order they are
kept in. -/
namespace GatewayAdmin.Json

inductive Value where
  | null
  | bool (b : Bool)
  | number (n : Number)
  | string (s : String)
  | array (items : List Value)
  | object (members : List (String × Value))

namespace Value

mutual

def decEq : (a b : Value) → Decidable (a = b)
  | .null, .null => isTrue rfl
  | .bool a, .bool b => decidable_of_iff (a = b) (by simp)
  | .number a, .number b => decidable_of_iff (a = b) (by simp)
  | .string a, .string b => decidable_of_iff (a = b) (by simp)
  | .array a, .array b =>
    match decEqItems a b with
    | isTrue h => isTrue (by rw [h])
    | isFalse h => isFalse (by simp [h])
  | .object a, .object b =>
    match decEqMembers a b with
    | isTrue h => isTrue (by rw [h])
    | isFalse h => isFalse (by simp [h])
  | .null, .bool _ | .null, .number _ | .null, .string _ | .null, .array _ | .null, .object _
  | .bool _, .null | .bool _, .number _ | .bool _, .string _ | .bool _, .array _
  | .bool _, .object _ | .number _, .null | .number _, .bool _ | .number _, .string _
  | .number _, .array _ | .number _, .object _ | .string _, .null | .string _, .bool _
  | .string _, .number _ | .string _, .array _ | .string _, .object _ | .array _, .null
  | .array _, .bool _ | .array _, .number _ | .array _, .string _ | .array _, .object _
  | .object _, .null | .object _, .bool _ | .object _, .number _ | .object _, .string _
  | .object _, .array _ => isFalse (by simp)

def decEqItems : (a b : List Value) → Decidable (a = b)
  | [], [] => isTrue rfl
  | [], _ :: _ | _ :: _, [] => isFalse (by simp)
  | a :: as, b :: bs =>
    match decEq a b, decEqItems as bs with
    | isTrue h, isTrue hs => isTrue (by rw [h, hs])
    | isFalse h, _ => isFalse (by simp [h])
    | _, isFalse hs => isFalse (by simp [hs])

def decEqMembers : (a b : List (String × Value)) → Decidable (a = b)
  | [], [] => isTrue rfl
  | [], _ :: _ | _ :: _, [] => isFalse (by simp)
  | (k, a) :: as, (l, b) :: bs =>
    if hk : k = l then
      match decEq a b, decEqMembers as bs with
      | isTrue h, isTrue hs => isTrue (by rw [hk, h, hs])
      | isFalse h, _ => isFalse (by simp [h])
      | _, isFalse hs => isFalse (by simp [hs])
    else isFalse (by simp [hk])

end

instance : DecidableEq Value := decEq

def integer (n : Int) : Value := .number (.integer n)

/-- Two hexadecimal digits of a control character. -/
def controlChars (n : Nat) : List Char :=
  ['\\', 'u', '0', '0', Text.hexDigit (n / 16), Text.hexDigit (n % 16)]

def escapeChar (c : Char) : List Char :=
  match c with
  | '"' => ['\\', '"']
  | '\\' => ['\\', '\\']
  | '\x08' => ['\\', 'b']
  | '\x0c' => ['\\', 'f']
  | '\n' => ['\\', 'n']
  | '\r' => ['\\', 'r']
  | '\t' => ['\\', 't']
  | c => if c.toNat < 0x20 then controlChars c.toNat else [c]

def stringChars (s : String) : List Char := '"' :: s.toList.flatMap escapeChar ++ ['"']

def numberChars : Number → List Char
  | .integer n => Text.integerChars n
  | .float bits => Shortest.text bits

mutual

def compactChars : Value → List Char
  | null => "null".toList
  | bool b => if b then "true".toList else "false".toList
  | number n => numberChars n
  | string s => stringChars s
  | array items => '[' :: (compactItems items ++ [']'])
  | object members => '\x7b' :: (compactMembers members ++ ['\x7d'])

def compactItems : List Value → List Char
  | [] => []
  | v :: rest => compactChars v ++ compactRest rest

def compactRest : List Value → List Char
  | [] => []
  | v :: rest => ',' :: (compactChars v ++ compactRest rest)

def compactMembers : List (String × Value) → List Char
  | [] => []
  | (k, v) :: rest => stringChars k ++ ':' :: (compactChars v ++ compactMembersRest rest)

def compactMembersRest : List (String × Value) → List Char
  | [] => []
  | (k, v) :: rest => ',' :: (stringChars k ++ ':' :: (compactChars v ++ compactMembersRest rest))

end

def compact (v : Value) : String := String.ofList v.compactChars

def lineBreak (depth : Nat) : List Char := '\n' :: List.replicate (2 * depth) ' '

mutual

def prettyChars (depth : Nat) : Value → List Char
  | array (v :: rest) =>
    '[' :: (lineBreak (depth + 1) ++ prettyChars (depth + 1) v ++ prettyRest (depth + 1) rest ++
      lineBreak depth ++ [']'])
  | object ((k, v) :: rest) =>
    '\x7b' :: (lineBreak (depth + 1) ++ stringChars k ++ ':' :: ' ' :: prettyChars (depth + 1) v ++
      prettyMembersRest (depth + 1) rest ++ lineBreak depth ++ ['\x7d'])
  | array [] => ['[', ']']
  | object [] => ['\x7b', '\x7d']
  | null => "null".toList
  | bool b => if b then "true".toList else "false".toList
  | number n => numberChars n
  | string s => stringChars s

def prettyRest (depth : Nat) : List Value → List Char
  | [] => []
  | v :: rest => ',' :: (lineBreak depth ++ prettyChars depth v ++ prettyRest depth rest)

def prettyMembersRest (depth : Nat) : List (String × Value) → List Char
  | [] => []
  | (k, v) :: rest =>
    ',' :: (lineBreak depth ++ stringChars k ++ ':' :: ' ' :: prettyChars depth v ++
      prettyMembersRest depth rest)

end

/-- Two spaces a level. -/
def pretty (v : Value) : String := String.ofList (prettyChars 0 v)

end Value
end GatewayAdmin.Json
