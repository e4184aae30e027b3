import AlarmBridge.Json.Fault

/-! Reading JSON from the front of a text: blanks, the words `null`, `true` and `false`, and
strings.  A reader takes what it reads off the text or stops at the first fault. -/

set_option autoImplicit false

namespace AlarmBridge.Json

/-- Reading from the front of a text. -/
abbrev Reader (α : Type) := StateT (List Char) (Except Fault) α

/-- Whether a character separates tokens. -/
def isSpace (c : Char) : Bool := c = ' ' || c = '\n' || c = '\t' || c = '\r'

namespace Reader

/-- Leaves out the blanks that come next. -/
def spaces : Reader Unit := modify (·.dropWhile isSpace)

/-- The next character, left in place. -/
def peek : Reader (Option Char) := return (← get).head?

/-- The next character past any blanks, left in place. -/
def peekPastSpaces : Reader (Option Char) := do
  spaces
  peek

def skip : Reader Unit := modify (·.drop 1)

/-- Takes the letters of a word that must come next. -/
def word : List Char → Reader Unit
  | [] => pure ()
  | c :: cs => do
    match ← get with
    | [] => throw .endInValue
    | d :: s =>
      set s
      if d = c then word cs else throw .expectedWord

end Reader

def hexValue? (c : Char) : Option Nat :=
  if '0' ≤ c ∧ c ≤ '9' then some (c.toNat - '0'.toNat)
  else if 'a' ≤ c ∧ c ≤ 'f' then some (c.toNat - 'a'.toNat + 10)
  else if 'A' ≤ c ∧ c ≤ 'F' then some (c.toNat - 'A'.toNat + 10)
  else none

def hexValue4? (a b c d : Char) : Option Nat := do
  return ((← hexValue? a) * 16 + (← hexValue? b)) * 256 + (← hexValue? c) * 16 + (← hexValue? d)

namespace Reader

/-- Four hexadecimal digits.  A text that has too few bytes left for them has ended too early. -/
def hexCode : Reader Nat := do
  match ← get with
  | a :: b :: c :: d :: s =>
    match hexValue4? a b c d with
    | some n =>
      set s
      pure n
    | none => throw .invalidEscape
  | s => throw (if (String.ofList s).utf8ByteSize < 4 then .endInString else .invalidEscape)

/-- One character that must come next, with a fault of its own. -/
def demand (c : Char) (fault : Fault) : Reader Unit := do
  match ← get with
  | [] => throw .endInString
  | d :: s => if d = c then set s else throw fault

/-- Whether a code unit is the first or the second half of a surrogate pair. -/
def isLeading (n : Nat) : Bool := 0xD800 ≤ n && n ≤ 0xDBFF

@[inherit_doc isLeading]
def isTrailing (n : Nat) : Bool := 0xDC00 ≤ n && n ≤ 0xDFFF

/-- The character of an escape with a code, both halves of a surrogate pair together. -/
def codeEscape : Reader Char := do
  let n ← hexCode
  if isTrailing n then throw .loneSurrogate
  else if isLeading n then
    demand '\\' .unfinishedSurrogate
    demand 'u' .unfinishedSurrogate
    let m ← hexCode
    if isTrailing m then pure (Char.ofNat (0x10000 + (n - 0xD800) * 0x400 + (m - 0xDC00)))
    else throw .loneSurrogate
  else pure (Char.ofNat n)

/-- The character that a letter after a backslash stands for. -/
def letterEscape? (c : Char) : Option Char :=
  if c = '"' ∨ c = '\\' ∨ c = '/' then some c
  else if c = 'b' then some '\x08'
  else if c = 'f' then some '\x0c'
  else if c = 'n' then some '\n'
  else if c = 'r' then some '\r'
  else if c = 't' then some '\t'
  else none

/-- What follows a backslash in a string. -/
def escape : Reader Char := do
  match ← get with
  | [] => throw .endInString
  | c :: s =>
    set s
    if c = 'u' then codeEscape
    else match letterEscape? c with
      | some c => pure c
      | none => throw .invalidEscape

/-- What follows a backslash in a string whose content does not matter. -/
def escapeLoosely : Reader Char := do
  match ← get with
  | [] => throw .endInString
  | c :: s =>
    set s
    if c = 'u' then
      discard hexCode
      pure c
    else match letterEscape? c with
      | some c => pure c
      | none => throw .invalidEscape

/-- The characters up to the closing quote, escapes read by the reader given, after those already
read, last first. -/
def stringFrom (escape : Reader Char) : Nat → List Char → Reader (List Char)
  | 0, _ => throw .endInString
  | fuel + 1, before => do
    match ← get with
    | [] => throw .endInString
    | c :: s =>
      set s
      if c = '"' then pure before.reverse
      else if c = '\\' then
        let c ← escape
        stringFrom escape fuel (c :: before)
      else if c.toNat < 0x20 then throw .controlCharacter
      else stringFrom escape fuel (c :: before)

/-- The content of a string whose opening quote has been taken. -/
def stringBody : Reader (List Char) := do
  let s ← get
  stringFrom escape (s.length + 1) []

/-- Leaves out a string whose opening quote has been taken. -/
def skipString : Reader Unit := do
  let s ← get
  discard (stringFrom escapeLoosely (s.length + 1) [])

end Reader

end AlarmBridge.Json
