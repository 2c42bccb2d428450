import GatewayAdmin.Text.Numeral
/-! Request targets: a path with an optional query, an authority alone, or a whole URI with scheme,
authority, path and query. Nothing is normalised but the case of `http` and `https`; a fragment is
dropped. -/
namespace GatewayAdmin

/-- Where a scan of an authority stands. Colons and percent signs count from the last `@` or `]`,
since before that they belong to the user information or to a bracketed address. -/
structure AuthorityScan where
  colons : Nat := 0
  bracketOpen : Bool := false
  bracketClosed : Bool := false
  percent : Bool := false
  last : Char := '/'
deriving DecidableEq

namespace AuthorityScan

def isPlain (c : Char) : Bool :=
  ('a' ≤ c && c ≤ 'z') || ('A' ≤ c && c ≤ 'Z') || ('0' ≤ c && c ≤ '9') ||
    "!$&'()*+,-.;=_~".toList.contains c

/-- At most eight colons, as in an address of eight groups with a port. -/
def step (s : AuthorityScan) (c : Char) : Option AuthorityScan :=
  match c with
  | ':' => if s.colons ≥ 8 then none else some { s with colons := s.colons + 1, last := c }
  | '[' =>
    if s.percent || s.bracketOpen then none
    else some { s with bracketOpen := true, last := c }
  | ']' =>
    if !s.bracketOpen || s.bracketClosed then none
    else some { s with bracketClosed := true, colons := 0, percent := false, last := c }
  | '@' => some { s with colons := 0, percent := false, last := c }
  | '%' => some { s with percent := true, last := c }
  | c => if isPlain c then some { s with last := c } else none

def isComplete (s : AuthorityScan) : Bool :=
  s.bracketOpen = s.bracketClosed && s.colons ≤ 1 && s.last ≠ '@' && !s.percent

end AuthorityScan

def isAuthority (cs : List Char) : Bool :=
  !cs.isEmpty && ((cs.foldlM AuthorityScan.step {}).any AuthorityScan.isComplete)

structure Authority where
  text : String
  isAuthority : isAuthority text.toList = true
deriving DecidableEq

namespace Authority

def ofChars? (cs : List Char) : Option Authority :=
  if h : GatewayAdmin.isAuthority (String.ofList cs).toList = true then some ⟨String.ofList cs, h⟩
  else none

def afterLast (c : Char) (cs : List Char) : List Char :=
  (cs.reverse.takeWhile (· ≠ c)).reverse

/-- What follows the user information, without the port. A bracketed address keeps its brackets. -/
def hostChars (a : Authority) : List Char :=
  let hostPort := afterLast '@' a.text.toList
  if hostPort.head? = some '[' then hostPort.takeWhile (· ≠ ']') ++ [']']
  else hostPort.takeWhile (· ≠ ':')

def host (a : Authority) : String := String.ofList a.hostChars

/-- The number after the last colon, if it is a port number. -/
def port (a : Authority) : Option Nat :=
  if a.text.toList.contains ':' then
    Text.unsigned? 65535 (String.ofList (afterLast ':' a.text.toList))
  else none

end Authority

inductive Scheme where
  | http
  | https
  | other (name : String)
deriving DecidableEq

namespace Scheme

def name : Scheme → String
  | http => "http"
  | https => "https"
  | other name => name

def defaultPort : Scheme → Option Nat
  | http => some 80
  | https => some 443
  | other _ => none

def maxLength : Nat := 64

/-- The characters of a scheme name, and the tilde, which is let through here. -/
def isSchemeChar (c : Char) : Bool :=
  ('a' ≤ c && c ≤ 'z') || ('A' ≤ c && c ≤ 'Z') || ('0' ≤ c && c ≤ '9') ||
    c = '+' || c = '-' || c = '.' || c = '~'

end Scheme

inductive Uri where
  | originForm (path : String) (query : Option String)
  | authorityForm (authority : Authority)
  | absoluteForm (scheme : Scheme) (authority : Authority) (path : String) (query : Option String)
deriving DecidableEq

namespace Uri

def maxBytes : Nat := 65534

/-- Of ASCII a path has no space, no control character, the deletion character included, and none of
`<`, `>`, `^` and the grave accent. -/
def isPathChar (c : Char) : Bool :=
  c = '!' || ('$' ≤ c && c ≤ ';') || c = '=' || ('@' ≤ c && c ≤ '_') || ('a' ≤ c && c ≤ 'z') ||
    c = '|' || c = '~' || c = '"' || c = '\x7b' || c = '\x7d' || c.toNat ≥ 128

/-- A query has no space, no control character, the deletion character included, and none of `"`,
`<` and `>`. -/
def isQueryChar (c : Char) : Bool :=
  c = '!' || ('$' ≤ c && c ≤ ';') || c = '=' || ('?' ≤ c && c ≤ '~') || c.toNat ≥ 128

/-- The query after its question mark; a fragment ends it. -/
def readQuery? (cs : List Char) : Option String :=
  let query := cs.takeWhile (· ≠ '#')
  if query.all isQueryChar then some (String.ofList query) else none

def isPathEnd (c : Char) : Bool := c = '?' || c = '#'

def readPathQuery? (cs : List Char) : Option (String × Option String) :=
  let path := cs.takeWhile (!isPathEnd ·)
  if path.all isPathChar then
    match cs.dropWhile (!isPathEnd ·) with
    | '?' :: r => (readQuery? r).map fun query => (String.ofList path, some query)
    | _ => some (String.ofList path, none)
  else none

/-- The outcome of looking for `scheme://` at the start of a text. -/
inductive SchemeSearch where
  | found (scheme : Scheme) (rest : List Char)
  | absent
  | tooLong

def stripIgnoringCase? (lower : List Char) (cs : List Char) : Option (List Char) :=
  if (cs.take lower.length).map Char.toLower = lower then some (cs.drop lower.length) else none

def searchScheme (cs : List Char) : SchemeSearch :=
  match stripIgnoringCase? "http://".toList cs with
  | some rest => .found .http rest
  | none =>
    match stripIgnoringCase? "https://".toList cs with
    | some rest => .found .https rest
    | none =>
      let name := cs.takeWhile Scheme.isSchemeChar
      match cs.dropWhile Scheme.isSchemeChar with
      | ':' :: '/' :: '/' :: rest =>
        if name.length > Scheme.maxLength then .tooLong
        else .found (.other (String.ofList name)) rest
      | _ => .absent

def isAuthorityEnd (c : Char) : Bool := c = '/' || c = '?' || c = '#'

def readAbsolute? (scheme : Scheme) (cs : List Char) : Option Uri := do
  let authority ← Authority.ofChars? (cs.takeWhile (!isAuthorityEnd ·))
  let (path, query) ← readPathQuery? (cs.dropWhile (!isAuthorityEnd ·))
  return .absoluteForm scheme authority (if path = "" then "/" else path) query

def readFull? (cs : List Char) : Option Uri :=
  match searchScheme cs with
  | .found scheme rest => readAbsolute? scheme rest
  | .absent => (Authority.ofChars? cs).map .authorityForm
  | .tooLong => none

def parse? (s : String) : Option Uri :=
  if s.utf8ByteSize > maxBytes then none
  else match s.toList with
    | [] => none
    | ['*'] => some (.originForm "*" none)
    | '/' :: r => (readPathQuery? ('/' :: r)).map fun p => .originForm p.1 p.2
    | cs => readFull? cs

def scheme? : Uri → Option Scheme
  | absoluteForm scheme .. => some scheme
  | _ => none

def authority? : Uri → Option Authority
  | absoluteForm _ authority .. => some authority
  | authorityForm authority => some authority
  | originForm .. => none

def path : Uri → String
  | originForm path _ => path
  | authorityForm _ => ""
  | absoluteForm _ _ path _ => path

def query? : Uri → Option String
  | originForm _ query => query
  | authorityForm _ => none
  | absoluteForm _ _ _ query => query

def host? (u : Uri) : Option String := u.authority?.map Authority.host

def port? (u : Uri) : Option Nat := u.authority?.bind Authority.port

/-- The port that a connection would use, where one is known. -/
def effectivePort? (u : Uri) : Option Nat :=
  u.port?.or (u.scheme?.bind Scheme.defaultPort)

def toText (u : Uri) : String :=
  (u.scheme?.elim "" fun s => s.name ++ "://") ++ (u.authority?.elim "" Authority.text) ++ u.path ++
    u.query?.elim "" ("?" ++ ·)

end Uri
end GatewayAdmin
