import GatewayAdmin.Text.Numeral
import GatewayAdmin.Text.Utf8
/-! Percent-encoding. Only the unreserved characters stand for themselves; reading takes every
well-formed escape, whatever octet it names, and leaves a malformed one as text. -/
namespace GatewayAdmin.Percent

/-- The unreserved characters of a URI: letters, digits, and the marks `-`, `_`, `.`, `~`. -/
def isUnreserved (b : UInt8) : Bool :=
  (0x30 ≤ b && b ≤ 0x39) || (0x41 ≤ b && b ≤ 0x5A) || (0x61 ≤ b && b ≤ 0x7A) ||
    b = 0x2D || b = 0x5F || b = 0x2E || b = 0x7E

def escape (b : UInt8) : List Char :=
  ['%', Text.hexDigitUpper (b.toNat / 16), Text.hexDigitUpper (b.toNat % 16)]

def encodeByte (b : UInt8) : List Char :=
  if isUnreserved b then [Char.ofNat b.toNat] else escape b

def encode (bs : List UInt8) : List Char := bs.flatMap encodeByte

def encodeText (s : String) : String := String.ofList (encode (Text.utf8 s))

def decode : List Char → List UInt8
  | [] => []
  | '%' :: a :: b :: r =>
    match Text.hexValue? a, Text.hexValue? b with
    | some hi, some lo => UInt8.ofNat (16 * hi + lo) :: decode r
    | _, _ => 0x25 :: decode (a :: b :: r)
  | c :: r => String.utf8EncodeChar c ++ decode r

end GatewayAdmin.Percent
