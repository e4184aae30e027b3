import AlarmBridge.Json.Reader

/-! Numbers of JSON.  Digits are gathered while they fit 64 bits; a number with a fraction, an
exponent or more digits is that significand times or over a power of ten, each step rounded to
binary64. -/

set_option autoImplicit false

namespace AlarmBridge.Json

open Decimal (Binary64)

/-- The largest significand that is gathered. -/
def maxSignificand : Nat := UInt64.size - 1

/-- The largest exponent that is read. -/
def maxExponent : Nat := Nat.pow 2 31 - 1

def digitValue (c : Char) : Nat := c.toNat - '0'.toNat

/-- The significand that digits leave after `n`, and how many of them fitted. -/
def gather (n : Nat) : List Char → Nat × Nat
  | [] => (n, 0)
  | c :: cs =>
    if maxSignificand < n * 10 + digitValue c then (n, 0)
    else
      let next := gather (n * 10 + digitValue c) cs
      (next.1, next.2 + 1)

/-- The binary64 power of ten, for exponents up to 308. -/
def powerOfTen (e : Nat) : Option Binary64 := Binary64.ofNat? (Nat.pow 10 e)

/-- A magnitude over ten to the given power, in two steps beyond 308.  Two steps leave nothing of a
64-bit significand beyond 616. -/
def divideByTens (x : Binary64) (e : Nat) : Option Binary64 :=
  if e ≤ 308 then do x.div (← powerOfTen e)
  else if e ≤ 616 then do (← x.div (← powerOfTen 308)).div (← powerOfTen (e - 308))
  else some Binary64.zero

/-- The magnitude `significand * 10 ^ exponent`, rounded at each step. -/
def scale (significand : Nat) (exponent : Int) : Except Fault Binary64 :=
  let start := Binary64.ofNat? significand
  let scaled :=
    if exponent < 0 then start.bind fun x => divideByTens x exponent.natAbs
    else if significand = 0 then start
    else if 308 < exponent then none
    else do (← start).mul (← powerOfTen exponent.toNat)
  match scaled with
  | some x => .ok x
  | none => .error .numberOutOfRange

/-- The exponent with its sign bounded to 32 bits. -/
def clampExponent (e : Int) : Int := max (-(maxExponent : Int) - 1) (min maxExponent e)

namespace Reader

/-- The decimal digits that come next. -/
def digits : Reader (List Char) := do
  let s ← get
  set (s.dropWhile Char.isDigit)
  return s.takeWhile Char.isDigit

/-- What the digits of an exponent amount to; none once they are too many. -/
def exponentValue? (ds : List Char) : Option Nat :=
  ds.foldl (fun n c => n.bind fun n =>
    if maxExponent < n * 10 + digitValue c then none else some (n * 10 + digitValue c)) (some 0)

/-- The rest of a number from the letter of its exponent on. -/
def exponentPart (significand : Nat) (exponent : Int) : Reader Binary64 := do
  skip
  let sign ← peek
  if sign = some '+' ∨ sign = some '-' then skip
  let ds ← digits
  if ds.isEmpty then
    throw (if (← get).isEmpty then .endInValue else .invalidNumber)
  match exponentValue? ds with
  | some e =>
    liftM (scale significand
      (clampExponent (if sign = some '-' then exponent - e else exponent + e)))
  | none =>
    if significand ≠ 0 ∧ sign ≠ some '-' then throw .numberOutOfRange else pure Binary64.zero

/-- Whether an exponent comes next. -/
def atExponent : Reader Bool := do
  let c ← peek
  return c = some 'e' || c = some 'E'

/-- The rest of a number after its whole digits. -/
def floatRest (significand : Nat) (exponent : Int) : Reader Binary64 := do
  if (← peek) = some '.' then
    skip
    let ds ← digits
    if ds.isEmpty then
      throw (if (← get).isEmpty then .endInValue else .invalidNumber)
    let (n, count) := gather significand ds
    let exponent := exponent - count
    if ← atExponent then exponentPart n exponent else liftM (scale n exponent)
  else if ← atExponent then exponentPart significand exponent
  else liftM (scale significand exponent)

/-- The whole digits of a number: none may follow a zero in front. -/
def wholeDigits : Reader (List Char) := do
  match ← get with
  | [] => throw .endInValue
  | c :: s =>
    if c = '0' then
      set s
      if s.head?.any Char.isDigit then throw .invalidNumber
      pure [c]
    else if c.isDigit then digits
    else throw .invalidNumber

/-- A number whose sign has been taken. -/
def unsignedNumber (negative : Bool) : Reader Number := do
  let ds ← wholeDigits
  let (n, count) := gather 0 ds
  let c ← peek
  if count < ds.length ∨ c = some '.' ∨ c = some 'e' ∨ c = some 'E' then
    return .float negative (← floatRest n (ds.length - count : Nat))
  else if !negative then return .whole n
  else if n = 0 ∨ Nat.pow 2 63 < n then return .float true (← liftM (scale n 0))
  else return .whole (-(n : Int))

/-- A number, which is known to come next. -/
def number : Reader Number := do
  if (← peek) = some '-' then
    skip
    unsignedNumber true
  else unsignedNumber false

def startsNumber (c : Char) : Bool := c = '-' || c.isDigit

/-- Refuses a value of the wrong kind, whose form is read first. -/
def mismatch {α : Type} (wanted : Wanted) : Reader α := do
  let fail (found : Found) : Reader α := throw (.wrongType found wanted)
  match ← peek with
  | none => throw .expectedValue
  | some c =>
    if c = 'n' then
      word ['n', 'u', 'l', 'l']
      fail .null
    else if c = 't' then
      word ['t', 'r', 'u', 'e']
      fail (.boolean true)
    else if c = 'f' then
      word ['f', 'a', 'l', 's', 'e']
      fail (.boolean false)
    else if startsNumber c then fail (.number (← number))
    else if c = '"' then
      skip
      fail (.text (← stringBody))
    else if c = '[' then fail .sequence
    else if c = '\x7b' then fail .map
    else throw .expectedValue

end Reader

end AlarmBridge.Json
