/-! Finite binary64 magnitudes as exact numbers.  `round` takes a quotient to the nearest magnitude,
a tie to the even one, and refuses what rounds beyond the largest. -/

set_option autoImplicit false

namespace AlarmBridge.Decimal

/-- The finite magnitude `mantissa * 2 ^ shift / 2 ^ 1074`. -/
structure Binary64 where
  mantissa : Nat
  shift : Nat
deriving Repr, DecidableEq, Inhabited

namespace Binary64

def zero : Binary64 := ⟨0, 0⟩

/-- The quotient that a magnitude is. -/
def numerator (x : Binary64) : Nat := x.mantissa * Nat.pow 2 x.shift

/-- The denominator that all magnitudes share. -/
def denominator : Nat := Nat.pow 2 1074

def isZero (x : Binary64) : Bool := x.mantissa = 0

end Binary64

/-- The nearest integer to `num / den`, a tie to the even one. -/
def roundHalfEven (num den : Nat) : Nat :=
  let q := num / den
  let r := num % den
  if 2 * r < den then q
  else if den < 2 * r then q + 1
  else if q % 2 = 0 then q else q + 1

namespace Binary64

/-- The largest shift of a finite magnitude. -/
def maxShift : Nat := 2045

/-- The magnitude nearest to `num / den`; none if that is beyond the largest. -/
def round (num den : Nat) : Option Binary64 :=
  let scaled := num * denominator
  let shift := (scaled / den).log2 + 1 - 53
  let m := roundHalfEven scaled (den * Nat.pow 2 shift)
  let x : Binary64 := if m = Nat.pow 2 53 then ⟨Nat.pow 2 52, shift + 1⟩ else ⟨m, shift⟩
  if x.shift ≤ maxShift then some x else none

/-- The magnitude nearest to a whole number. -/
def ofNat? (n : Nat) : Option Binary64 := round n 1

/-- The rounded product. -/
def mul (x y : Binary64) : Option Binary64 :=
  round (x.numerator * y.numerator) (denominator * denominator)

/-- The rounded quotient. -/
def div (x y : Binary64) : Option Binary64 := round x.numerator y.numerator

end Binary64

end AlarmBridge.Decimal
