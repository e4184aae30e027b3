import AlarmBridge.Text.Blank
import AlarmBridge.Time.Timestamp

/-! Timestamps read in a relaxed RFC 3339: fields of one or two digits, blanks before separators,
signed years, a blank for the `T`, and an offset written as `Z`, `UTC` or hours and minutes with any
colons or blanks between.  The first fault in reading order is the one told; a field out of its
range is told when it is read, a date that does not exist at the end. -/

set_option autoImplicit false

namespace AlarmBridge.Time

/-- Why a text is no timestamp. -/
inductive TimestampFault
  | outOfRange
  | impossible
  | invalid
  | tooShort
  | tooLong
deriving Repr, DecidableEq, Inhabited

def TimestampFault.message : TimestampFault → String
  | .outOfRange => "input is out of range"
  | .impossible => "no possible date and time matching input"
  | .invalid => "input contains invalid characters"
  | .tooShort => "premature end of input"
  | .tooLong => "trailing input"

/-- A step of reading a timestamp. -/
abbrev Scan (α : Type) := StateT (List Char) (Except TimestampFault) α

namespace Scan

/-- The largest number a field can be read as. -/
def maxNumber : Nat := Nat.pow 2 63 - 1

/-- The value of decimal digits read after `n`, refused once it is too large. -/
def accumulate (n : Nat) : List Char → Except TimestampFault Nat
  | [] => .ok n
  | c :: cs =>
    let n := n * 10 + (c.toNat - '0'.toNat)
    if maxNumber < n then .error .outOfRange else accumulate n cs

def blanks : Scan Unit := modify Text.trimStart

/-- The digits that come next, at least one and at most as many as given, as a number. -/
def number (most : Option Nat) : Scan Nat := do
  let s ← get
  let ds := (match most with | some n => s.take n | none => s).takeWhile Char.isDigit
  if s.isEmpty then throw .tooShort
  if ds.isEmpty then throw .invalid
  set (s.drop ds.length)
  accumulate 0 ds

/-- One separator, after blanks. -/
def separator (c : Char) : Scan Unit := do
  blanks
  match ← get with
  | [] => throw .tooShort
  | d :: s => if d = c then set s else throw .invalid

/-- A number within bounds. -/
def bounded (lo hi : Nat) (most : Option Nat) : Scan Nat := do
  let n ← number most
  if lo ≤ n ∧ n ≤ hi then pure n else throw .outOfRange

/-- A field of one or two digits within bounds, after blanks. -/
def field (lo hi : Nat) : Scan Nat := do
  blanks
  bounded lo hi (some 2)

/-- A year: at most four digits, or a sign and any number of digits. -/
def year : Scan Int := do
  blanks
  match ← get with
  | '-' :: s =>
    set s
    let n ← number none
    if n ≤ Nat.pow 2 31 then pure (-(n : Int)) else throw .outOfRange
  | '+' :: s =>
    set s
    let n ← number none
    if n < Nat.pow 2 31 then pure n else throw .outOfRange
  | _ => Int.ofNat <$> number (some 4)

def date : Scan Date := do
  let y ← year
  separator '-'
  let m ← field 1 12
  separator '-'
  let d ← field 1 31
  pure ⟨y, m, d⟩

/-- The mark between date and time. -/
def dateEnd : Scan Unit := do
  match ← get with
  | [] => throw .tooShort
  | c :: s => if c = 'T' ∨ c = 't' ∨ c = ' ' then set s else throw .invalid

/-- A fraction of a second in nanoseconds, digits past the ninth left out. -/
def fraction : Scan Nat := do
  match ← get with
  | '.' :: s =>
    set s
    let ds := (s.take 9).takeWhile Char.isDigit
    let n ← number (some 9)
    modify (·.dropWhile Char.isDigit)
    pure (n * Nat.pow 10 (9 - ds.length))
  | _ => pure 0

/-- A time of day: seconds, and nanoseconds with 10^9 more for a second 60. -/
def time : Scan (Nat × Nat) := do
  let h ← field 0 23
  separator ':'
  let m ← field 0 59
  separator ':'
  let s ← field 0 60
  let nanos ← fraction
  if s = 60 then pure (h * 3600 + m * 60 + 59, nanos + 1000000000)
  else pure (h * 3600 + m * 60 + s, nanos)

/-- Two digits that must stand at once; short texts are told from wrong ones by their bytes. -/
def twoDigits : Scan (Nat × Nat) := do
  match ← get with
  | a :: b :: s =>
    if a.isDigit && b.isDigit then
      set s
      pure (a.toNat - '0'.toNat, b.toNat - '0'.toNat)
    else throw .invalid
  | [a] => throw (if a.utf8Size < 2 then .tooShort else .invalid)
  | [] => throw .tooShort

/-- An offset from universal time in seconds. -/
def offset : Scan Int := do
  match ← get with
  | [] => throw .tooShort
  | c :: s =>
    if c = 'Z' ∨ c = 'z' then
      set s
      pure 0
    else if c = '+' ∨ c = '-' ∨ c = '\u2212' then
      set s
      let (h1, h2) ← twoDigits
      modify (·.dropWhile fun c => c = ':' || Text.isBlank c)
      let (m1, m2) ← twoDigits
      if 5 < m1 then throw .outOfRange
      let seconds : Int := ((h1 * 10 + h2) * 3600 + (m1 * 10 + m2) * 60 : Nat)
      pure (if c = '+' then seconds else -seconds)
    else throw .invalid

/-- An offset, or the word for universal time in any case of its letters. -/
def zone : Scan Int := do
  blanks
  match ← get with
  | a :: b :: c :: s =>
    if [a.toUpper, b.toUpper, c.toUpper] = ['U', 'T', 'C'] then
      set s
      pure 0
    else offset
  | _ => offset

/-- The end of the text, after blanks. -/
def finish : Scan Unit := do
  if (Text.trimStart (← get)).isEmpty then pure () else throw .tooLong

end Scan

/-- The instant of a local date and time at an offset. -/
def Timestamp.ofLocal? (date : Date) (second nanos : Nat) (offset : Int) :
    Except TimestampFault Timestamp :=
  if !date.exists? then .error .outOfRange
  else if 86400 ≤ offset.natAbs then .error .outOfRange
  else
    let seconds := date.days * 86400 + second - offset
    if Date.yearInRange (Date.ofDays (seconds / 86400)).year then .ok ⟨seconds, nanos⟩
    else .error .impossible

def Timestamp.read : Scan Timestamp := do
  let date ← Scan.date
  Scan.dateEnd
  let (second, nanos) ← Scan.time
  let offset ← Scan.zone
  Scan.finish
  Timestamp.ofLocal? date second nanos offset

def Timestamp.ofText? (s : List Char) : Except TimestampFault Timestamp :=
  Timestamp.read.run' s

end AlarmBridge.Time
