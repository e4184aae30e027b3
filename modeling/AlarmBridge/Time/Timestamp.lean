import AlarmBridge.Time.Date

/-! Instants in universal time with nanoseconds, a leap second being a second of 10^9 nanoseconds
more, and their RFC 3339 texts. -/

set_option autoImplicit false

namespace AlarmBridge.Time

/-- Seconds since the start of 1970 and nanoseconds; from 10^9 on these lie in the leap second that
follows the second. -/
structure Timestamp where
  seconds : Int
  nanos : Nat
deriving Repr, DecidableEq, Inhabited

/-- A number in decimal with zeros in front up to a width. -/
def padded (width n : Nat) : List Char :=
  let ds := Nat.toDigits 10 n
  List.replicate (width - ds.length) '0' ++ ds

/-- A year: four digits from 0 to 9999, else a sign and at least four. -/
def yearText (y : Int) : List Char :=
  if 0 ≤ y ∧ y ≤ 9999 then padded 4 y.toNat
  else (if y < 0 then '-' else '+') :: padded 4 y.natAbs

/-- A fraction of a second of 0, 3, 6 or 9 digits, as few as hold it. -/
def fractionText (nanos : Nat) : List Char :=
  if nanos = 0 then []
  else if nanos % 1000000 = 0 then '.' :: padded 3 (nanos / 1000000)
  else if nanos % 1000 = 0 then '.' :: padded 6 (nanos / 1000)
  else '.' :: padded 9 nanos

namespace Timestamp

/-- The instant a number of milliseconds after the start of 1970. -/
def ofMillis (ms : Nat) : Timestamp := ⟨(ms / 1000 : Nat), ms % 1000 * 1000000⟩

/-- Whether the instant lies in a leap second. -/
def isLeap (t : Timestamp) : Bool := 1000000000 ≤ t.nanos

def date (t : Timestamp) : Date := Date.ofDays (t.seconds / 86400)

/-- The second of the day of an instant, a leap second counted to the second before it. -/
def secondOfDay (t : Timestamp) : Nat := (t.seconds % 86400).toNat

/-- Date and time to the second, a leap second as one second more. -/
def secondText (t : Timestamp) : List Char :=
  let d := t.date
  let s := t.secondOfDay
  yearText d.year ++ '-' :: padded 2 d.month ++ '-' :: padded 2 d.day ++
    'T' :: padded 2 (s / 3600) ++ ':' :: padded 2 (s / 60 % 60) ++
    ':' :: padded 2 (s % 60 + if t.isLeap then 1 else 0)

/-- The RFC 3339 text of an instant with the given mark of universal time. -/
def text (t : Timestamp) (mark : List Char) : List Char :=
  t.secondText ++ fractionText (t.nanos % 1000000000) ++ mark

end Timestamp

end AlarmBridge.Time
