import AlarmBridge.Decimal.Binary64

/-! The fewest decimal digits that read back as a given magnitude, the nearest of them, and their
text.  A decimal reads back when it lies among the quotients that round to the magnitude. -/

set_option autoImplicit false

namespace AlarmBridge.Decimal

/-- The number `digits * 10 ^ exponent`. -/
structure Numeral where
  digits : Nat
  exponent : Int
deriving Repr, DecidableEq, Inhabited

namespace Binary64

/-- The quotients that round to a magnitude, over the denominator `4 * denominator`: from the first
to the second, the ends included when the third holds. -/
def interval (x : Binary64) : Nat × Nat × Bool :=
  let ulp := 4 * Nat.pow 2 x.shift
  let centre := x.mantissa * ulp
  let below := if x.mantissa = Nat.pow 2 52 ∧ x.shift ≠ 0 then ulp / 4 else ulp / 2
  (centre - below, centre + ulp / 2, x.mantissa % 2 = 0)

/-- The denominator of `interval`. -/
def fineDenominator : Nat := 4 * denominator

/-- Whether `num / den` rounds to a magnitude. -/
def covers (x : Binary64) (num den : Nat) : Bool :=
  let i := x.interval
  let v := num * fineDenominator
  let lo := i.1 * den
  let hi := i.2.1 * den
  if i.2.2 then lo ≤ v && v ≤ hi else lo < v && v < hi

/-- The exponent of ten of the leading digit of `num / den`, for a positive quotient. -/
def leadingExponent (num den : Nat) : Int :=
  if den ≤ num then ((Nat.toDigits 10 (num / den)).length : Int) - 1
  else
    let k := (Nat.toDigits 10 ((den + num - 1) / num)).length
    if den ≤ num * Nat.pow 10 (k - 1) then -((k - 1 : Nat) : Int) else -(k : Int)

/-- The grid point `n * 10 ^ e` as a quotient. -/
def gridPoint (n : Nat) (e : Int) : Nat × Nat :=
  if 0 ≤ e then (n * Nat.pow 10 e.toNat, 1) else (n, Nat.pow 10 (-e).toNat)

/-- The decimal of the given number of digits nearest to a magnitude, if one reads back. -/
def onGrid? (x : Binary64) (count : Nat) : Option Numeral :=
  let e := leadingExponent x.numerator denominator - ((count : Int) - 1)
  let scaled := if 0 ≤ e then (x.numerator, denominator * Nat.pow 10 e.toNat)
    else (x.numerator * Nat.pow 10 (-e).toNat, denominator)
  let low := scaled.1 / scaled.2
  let fits (n : Nat) : Bool := x.covers (gridPoint n e).1 (gridPoint n e).2
  let nearest := roundHalfEven scaled.1 scaled.2
  if fits nearest then some ⟨nearest, e⟩
  else if fits low then some ⟨low, e⟩
  else if fits (low + 1) then some ⟨low + 1, e⟩
  else none

/-- The decimal of the fewest digits, of the counts listed, that reads back. -/
def firstOnGrid (x : Binary64) : List Nat → Numeral
  | [] => ⟨0, 0⟩
  | count :: counts => (x.onGrid? count).getD (firstOnGrid x counts)

/-- The shortest decimal that reads back as a magnitude. -/
def shortest (x : Binary64) : Numeral :=
  if x.isZero then ⟨0, 0⟩ else firstOnGrid x ((List.range 17).map (· + 1))

end Binary64

namespace Numeral

/-- A decimal without the zeros at the end of its digits, up to the given number of them. -/
def dropZeros (d : Numeral) : Nat → Numeral
  | 0 => d
  | n + 1 =>
    if d.digits ≠ 0 ∧ d.digits % 10 = 0 then dropZeros ⟨d.digits / 10, d.exponent + 1⟩ n else d

/-- The text of a decimal: positional while the leading digit stands for a power of ten from -5 to
15, and with at least one place; else one leading digit and a signed power. -/
def text (d : Numeral) : List Char :=
  let d := d.dropZeros (Nat.toDigits 10 d.digits).length
  let ds := Nat.toDigits 10 d.digits
  let point : Int := (ds.length : Int) + d.exponent
  if d.digits = 0 then ['0', '.', '0']
  else if 0 ≤ d.exponent ∧ point ≤ 16 then ds ++ List.replicate d.exponent.toNat '0' ++ ['.', '0']
  else if 0 < point ∧ point ≤ 16 then ds.take point.toNat ++ '.' :: ds.drop point.toNat
  else if -5 < point ∧ point ≤ 0 then
    ['0', '.'] ++ List.replicate (-point).toNat '0' ++ ds
  else
    let power := point - 1
    let sign := if 0 ≤ power then '+' else '-'
    let places := if ds.length ≤ 1 then [] else '.' :: ds.drop 1
    ds.take 1 ++ places ++ 'e' :: sign :: Nat.toDigits 10 power.natAbs

end Numeral

def signedText (negative : Bool) (x : Binary64) : List Char :=
  (if negative then ['-'] else []) ++ x.shortest.text

end AlarmBridge.Decimal
