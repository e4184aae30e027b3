import AlarmBridge.Decimal.Whole
import AlarmBridge.Failure

/-! Addresses of servers, as far as connecting needs them: a scheme, an authority and a path with a
query.  The first fault in reading order is the one told. -/

set_option autoImplicit false

namespace AlarmBridge.Push

structure Url where
  scheme : Option String
  authority : String
  path : String
deriving Repr, DecidableEq, Inhabited

namespace Url

/-- Whether a character may stand in a scheme, the colon apart. -/
def isSchemeChar (c : Char) : Bool := c.isAlphanum || c = '+' || c = '-' || c = '.' || c = '~'

def maxScheme : Nat := 64

/-- The scheme that a text begins with, and what follows its two slashes.  A text of three
characters has none. -/
def splitScheme (s : List Char) : Except UrlFault (Option (List Char) × List Char) :=
  let scheme := s.takeWhile isSchemeChar
  match s.drop scheme.length with
  | ':' :: '/' :: '/' :: rest =>
    if scheme.isEmpty ∧ rest.isEmpty then .ok (none, s)
    else if maxScheme < scheme.length then .error .schemeTooLong
    else .ok (some scheme, rest)
  | _ => .ok (none, s)

def endsAuthority (c : Char) : Bool := c = '/' || c = '?' || c = '#'

/-- Whether a character may stand in an authority, percent signs and brackets looked at apart. -/
def isAuthorityChar (c : Char) : Bool :=
  c.isAlphanum || "!$&'()*+,-.:;=@[]_~".toList.contains c

/-- What has been met of an authority. -/
structure Met where
  colons : Nat
  opened : Bool
  closed : Bool
  percent : Bool
  endsWithAt : Bool
deriving Repr, DecidableEq, Inhabited

/-- The next character of an authority. -/
def Met.next (m : Met) (c : Char) : Except UrlFault Met :=
  let m := { m with endsWithAt := c = '@' }
  if c = ':' then
    if 8 ≤ m.colons then .error .badAuthority else .ok { m with colons := m.colons + 1 }
  else if c = '[' then
    if m.percent || m.opened then .error .badAuthority else .ok { m with opened := true }
  else if c = ']' then
    if !m.opened || m.closed then .error .badAuthority
    else .ok { m with closed := true, colons := 0, percent := false }
  else if c = '@' then .ok { m with colons := 0, percent := false }
  else if c = '%' then .ok { m with percent := true }
  else if isAuthorityChar c then .ok m
  else .error .badCharacter

/-- Refuses what is no authority. -/
def checkAuthority (s : List Char) : Except UrlFault Unit := do
  let m ← s.foldlM Met.next ⟨0, false, false, false, false⟩
  if m.opened ≠ m.closed ∨ 1 < m.colons ∨ m.endsWithAt ∨ m.percent then .error .badAuthority

def isPathChar (c : Char) : Bool :=
  let n := c.toNat
  n = 0x21 || n = 0x22 || (0x24 ≤ n && n ≤ 0x3B) || n = 0x3D || (0x40 ≤ n && n ≤ 0x5F) ||
    (0x61 ≤ n && n ≤ 0x7E) || 0x7F ≤ n

def isQueryChar (c : Char) : Bool :=
  let n := c.toNat
  n = 0x21 || (0x24 ≤ n && n ≤ 0x3B) || n = 0x3D || 0x3F ≤ n

/-- The path and the query that a text is, without the fragment after them. -/
def readPath (s : List Char) : Except UrlFault (List Char) :=
  let whole := s.takeWhile (· ≠ '#')
  let path := whole.takeWhile (· ≠ '?')
  let query := (whole.drop path.length).drop 1
  if path.all isPathChar && query.all isQueryChar then .ok whole else .error .badCharacter

def maxLength : Nat := 65534

/-- The address that a text is. -/
def ofText? (s : List Char) : Except UrlFault Url := do
  if s.isEmpty then throw .empty
  if maxLength < (String.ofList s).utf8ByteSize then throw .tooLong
  if s.head? = some '/' then
    return ⟨none, "", String.ofList (← readPath s)⟩
  if s = ['*'] then return ⟨none, "", "*"⟩
  if s = ['?'] ∨ s = ['#'] then throw .badCharacter
  let (scheme, rest) ← splitScheme s
  let authority := rest.takeWhile (!endsAuthority ·)
  let path := rest.drop authority.length
  if rest.isEmpty then throw .empty
  checkAuthority authority
  match scheme with
  | none =>
    if path.isEmpty then return ⟨none, String.ofList authority, ""⟩ else throw .badFormat
  | some scheme =>
    if authority.isEmpty then throw .badFormat
    return ⟨some (String.ofList (scheme.map Char.toLower)), String.ofList authority,
      String.ofList (← readPath path)⟩

/-- The host and the number after it that an authority names, without the user before them. -/
def hostPart (u : Url) : List Char :=
  (u.authority.toList.reverse.takeWhile (· ≠ '@')).reverse

/-- The number of a service that an address gives, or that its scheme implies. -/
def service? (u : Url) : Option Nat :=
  let afterHost := (u.hostPart.reverse.takeWhile fun c => c ≠ ':' ∧ c ≠ ']').reverse
  let given := if afterHost.length < u.hostPart.length ∧ u.hostPart.getLast? ≠ some ']'
    then (Decimal.whole? afterHost).filter (· < UInt16.size) else none
  given.or (match u.scheme with
    | some "wss" => some 443
    | some "ws" => some 80
    | _ => none)

end Url

/-- The address of a server to connect to. -/
def target? (url : String) : Except PushCause Url :=
  match Url.ofText? url.toList with
  | .error fault => .error (.badUrl fault)
  | .ok u => if u.authority.isEmpty then .error (.badUrl .noHost)
    else if u.hostPart.isEmpty then .error (.badUrl .emptyHost)
    else .ok u

/-- Whether a token can be sent in a header. -/
def isSendable (token : String) : Bool :=
  token.toList.all fun c => (32 ≤ c.toNat && c.toNat ≠ 127) || c = '\t'

end AlarmBridge.Push
