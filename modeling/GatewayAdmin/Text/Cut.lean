/-! Cutting a text: in two at a separator, and the white space off its ends. -/
namespace GatewayAdmin.Text

/-- The part before the first separator, and the part after it if there is a separator. -/
def splitFirst {α : Type} [DecidableEq α] (sep : α) : List α → List α × Option (List α)
  | [] => ([], none)
  | x :: xs =>
    if x = sep then ([], some xs)
    else let p := splitFirst sep xs; (x :: p.1, p.2)

/-- The property `White_Space` of Unicode. -/
def isBlank (c : Char) : Bool :=
  let n := c.toNat
  (9 ≤ n && n ≤ 13) || n = 0x20 || n = 0x85 || n = 0xA0 || n = 0x1680 ||
    (0x2000 ≤ n && n ≤ 0x200A) || n = 0x2028 || n = 0x2029 || n = 0x202F || n = 0x205F || n = 0x3000

/-- `dropEndWhile p cs` is `cs` without its longest suffix of characters that satisfy `p`. -/
def dropEndWhile (p : Char → Bool) (cs : List Char) : List Char :=
  (cs.reverse.dropWhile p).reverse

def trimChars (cs : List Char) : List Char :=
  dropEndWhile isBlank (cs.dropWhile isBlank)

def trim (s : String) : String := String.ofList (trimChars s.toList)

def allBlank (s : String) : Bool := s.toList.all isBlank

theorem dropEndWhile_append_takeEnd (p : Char → Bool) (cs : List Char) :
    dropEndWhile p cs ++ (cs.reverse.takeWhile p).reverse = cs := by
  rw [dropEndWhile, ← List.reverse_append, List.takeWhile_append_dropWhile, List.reverse_reverse]

end GatewayAdmin.Text
