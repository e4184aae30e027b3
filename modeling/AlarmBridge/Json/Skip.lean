import AlarmBridge.Json.Number

/-! Leaving out a value whose content does not matter.  Its form is checked all the same, with a
stack of the lists and objects that are open, so that nesting of any depth is read. -/

set_option autoImplicit false

namespace AlarmBridge.Json

/-- An open list or object. -/
inductive Frame
  | list
  | object
deriving Repr, DecidableEq, Inhabited

/-- The fault of a text that ends inside. -/
def Frame.ended : Frame → Fault
  | .list => .endInList
  | .object => .endInObject

/-- The fault of a text that goes on with neither a comma nor the end. -/
def Frame.expectedComma : Frame → Fault
  | .list => .expectedListComma
  | .object => .expectedObjectComma

def Frame.closing : Frame → Char
  | .list => ']'
  | .object => '\x7d'

namespace Reader

/-- Leaves out digits, at least one. -/
def skipDigits : Reader Unit := do
  if (← digits).isEmpty then throw .invalidNumber

/-- Leaves out a number whose sign has been taken. -/
def skipUnsigned : Reader Unit := do
  match ← get with
  | [] => throw .invalidNumber
  | c :: s =>
    if c = '0' then
      set s
      if s.head?.any Char.isDigit then throw .invalidNumber
    else skipDigits
  if (← peek) = some '.' then
    skip
    skipDigits
  if ← atExponent then
    skip
    let sign ← peek
    if sign = some '+' ∨ sign = some '-' then skip
    skipDigits

/-- Leaves out a word, a number or a string, or opens a list or an object. -/
def open? : Reader (Option Frame) := do
  match ← peekPastSpaces with
  | none => throw .endInValue
  | some c =>
    if c = 'n' then
      word ['n', 'u', 'l', 'l']
      pure none
    else if c = 't' then
      word ['t', 'r', 'u', 'e']
      pure none
    else if c = 'f' then
      word ['f', 'a', 'l', 's', 'e']
      pure none
    else if c = '-' then
      skip
      skipUnsigned
      pure none
    else if c.isDigit then
      skipUnsigned
      pure none
    else if c = '"' then
      skip
      skipString
      pure none
    else if c = '[' then
      skip
      pure (some .list)
    else if c = '\x7b' then
      skip
      pure (some .object)
    else throw .expectedValue

/-- Leaves out the closing marks that come next and, where one may stand, a comma.  Gives what is
still open then; `comma` says whether a value stands before. -/
def close : List Frame → Bool → Reader (List Frame)
  | [], _ => pure []
  | frame :: frames, comma => do
    match ← peekPastSpaces with
    | none => throw frame.ended
    | some c =>
      if c = ',' ∧ comma then
        skip
        pure (frame :: frames)
      else if c = frame.closing then
        skip
        close frames true
      else if comma then throw frame.expectedComma
      else pure (frame :: frames)

/-- Leaves out the name before a value in an object. -/
def skipKey : Reader Unit := do
  match ← peekPastSpaces with
  | none => throw .endInObject
  | some c =>
    if c = '"' then skip else throw .keyNotString
  skipString
  match ← peekPastSpaces with
  | none => throw .endInObject
  | some c => if c = ':' then skip else throw .expectedColon

/-- Leaves out a value and what follows it up to the end of all that is open. -/
def skipFrom : Nat → List Frame → Reader Unit
  | 0, _ => throw .endInValue
  | fuel + 1, frames => do
    let opened ← open?
    let frames ← match opened with
      | some frame => close (frame :: frames) false
      | none => close frames true
    match frames with
    | [] => pure ()
    | .list :: _ => skipFrom fuel frames
    | .object :: _ => do
      skipKey
      skipFrom fuel frames

def skipValue : Reader Unit := do
  let s ← get
  skipFrom (s.length + 1) []

end Reader

end AlarmBridge.Json
