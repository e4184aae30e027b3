/-! Values of JSON and their text, written without blanks. -/

set_option autoImplicit false

namespace AlarmBridge.Json

/-- A value of JSON whose numbers are whole. -/
inductive Value
  | null
  | boolean (value : Bool)
  | number (value : Int)
  | text (value : String)
  | list (items : List Value)
  | object (members : List (String × Value))
deriving Inhabited

/-- Two digits to the base sixteen. -/
def hexByte (n : Nat) : List Char := [Nat.digitChar (n / 16), Nat.digitChar (n % 16)]

/-- One character as a string holds it: quotes, backslashes and control characters are escaped. -/
def escapeChar (c : Char) : List Char :=
  if c = '"' then ['\\', '"']
  else if c = '\\' then ['\\', '\\']
  else if c = '\n' then ['\\', 'n']
  else if c = '\r' then ['\\', 'r']
  else if c = '\t' then ['\\', 't']
  else if c = '\x08' then ['\\', 'b']
  else if c = '\x0c' then ['\\', 'f']
  else if c.toNat < 0x20 then ['\\', 'u', '0', '0'] ++ hexByte c.toNat
  else [c]

def quote (s : String) : List Char := '"' :: (s.toList.flatMap escapeChar ++ ['"'])

mutual

def Value.render : Value → List Char
  | .null => ['n', 'u', 'l', 'l']
  | .boolean true => ['t', 'r', 'u', 'e']
  | .boolean false => ['f', 'a', 'l', 's', 'e']
  | .number n => (toString n).toList
  | .text s => quote s
  | .list items => '[' :: (renderItems items ++ [']'])
  | .object members => '\x7b' :: (renderMembers members ++ ['\x7d'])

/-- The texts of the items of a list, with commas between. -/
def renderItems : List Value → List Char
  | [] => []
  | v :: vs => v.render ++ (if vs.isEmpty then [] else [',']) ++ renderItems vs

/-- The texts of the members of an object, with commas between. -/
def renderMembers : List (String × Value) → List Char
  | [] => []
  | m :: ms => renderMember m ++ (if ms.isEmpty then [] else [',']) ++ renderMembers ms

def renderMember : String × Value → List Char
  | (name, v) => quote name ++ ':' :: v.render

end

def Value.ofText? : Option String → Value
  | none => .null
  | some s => .text s

end AlarmBridge.Json
