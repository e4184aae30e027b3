/-! Whole numbers in decimal: a plus sign or none, and digits. -/

set_option autoImplicit false

namespace AlarmBridge.Decimal

def digitsValue (ds : List Char) : Nat := ds.foldl (fun n c => n * 10 + (c.toNat - '0'.toNat)) 0

/-- The number that a text is. -/
def whole? (s : List Char) : Option Nat :=
  let digits := match s with
    | '+' :: rest => rest
    | s => s
  if digits.isEmpty ∨ !digits.all Char.isDigit then none else some (digitsValue digits)

end AlarmBridge.Decimal
