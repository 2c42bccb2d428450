/-! Texts as octets. Reading is strict (`ofUtf8?`) or forgiving (`ofUtf8Lossy`); both go by the
same cut of the octets into characters and maximal ill-formed pieces. -/
namespace GatewayAdmin.Text

def utf8Chars (cs : List Char) : List UInt8 := cs.flatMap String.utf8EncodeChar

def utf8 (s : String) : List UInt8 := utf8Chars s.toList

def isContinuation (b : UInt8) : Bool := 0x80 ≤ b && b ≤ 0xBF

/-- Which second octets may follow a lead octet: overlong forms, surrogates and code points
above U+10FFFF are ruled out here. -/
def isSecond (lead b : UInt8) : Bool :=
  if lead < 0xC2 then false
  else if lead = 0xE0 then 0xA0 ≤ b && b ≤ 0xBF
  else if lead = 0xED then 0x80 ≤ b && b ≤ 0x9F
  else if lead = 0xF0 then 0x90 ≤ b && b ≤ 0xBF
  else if lead = 0xF4 then 0x80 ≤ b && b ≤ 0x8F
  else if lead < 0xF4 then isContinuation b
  else false

def scalar2 (a b : UInt8) : Char :=
  Char.ofNat ((a.toNat - 0xC0) * 64 + (b.toNat - 0x80))

def scalar3 (a b c : UInt8) : Char :=
  Char.ofNat ((a.toNat - 0xE0) * 4096 + (b.toNat - 0x80) * 64 + (c.toNat - 0x80))

def scalar4 (a b c d : UInt8) : Char :=
  Char.ofNat ((a.toNat - 0xF0) * 262144 + (b.toNat - 0x80) * 4096 + (c.toNat - 0x80) * 64 +
    (d.toNat - 0x80))

/-- The characters in reading order; `none` stands for one maximal piece that begins no
well-formed sequence, or is cut short. -/
def scalars : List UInt8 → List (Option Char)
  | [] => []
  | a :: r =>
    if a < 0x80 then some (Char.ofNat a.toNat) :: scalars r
    else match r with
      | [] => [none]
      | b :: r =>
        if !isSecond a b then none :: scalars (b :: r)
        else if a < 0xE0 then some (scalar2 a b) :: scalars r
        else match r with
          | [] => [none]
          | c :: r =>
            if !isContinuation c then none :: scalars (c :: r)
            else if a < 0xF0 then some (scalar3 a b c) :: scalars r
            else match r with
              | [] => [none]
              | d :: r =>
                if !isContinuation d then none :: scalars (d :: r)
                else some (scalar4 a b c d) :: scalars r

def ofUtf8? (bs : List UInt8) : Option String :=
  let cs := scalars bs
  if cs.all Option.isSome then some (String.ofList (cs.filterMap id)) else none

def ofUtf8Lossy (bs : List UInt8) : String :=
  String.ofList ((scalars bs).map (·.getD '\uFFFD'))

end GatewayAdmin.Text
