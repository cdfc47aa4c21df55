/-!
# Binary64 floats and decimal numbers

A decimal number is a whole number of powers of ten. `ofDecimal` gives the nearest float to one.
`scaled` is the faster rule of some readers: the digits are rounded to a float first, which is then
multiplied or divided by one rounded power of ten, so the result may be a neighbour of the nearest
float.
-/

namespace EditorFormat.Decimal

/-- The number of decimal digits that no finite float reaches: a number with more digits before
the point is infinite, and one with this many zeros after the point is zero. -/
def digitLimit : Nat := 400

/-- The float nearest to `digits * 10 ^ exponent`, infinite when that is too large. -/
def ofDecimal (digits : Nat) (exponent : Int) : Float :=
  if digits = 0 then 0.0
  else
    let magnitude : Int := exponent + (Nat.toDigits 10 digits).length
    if magnitude > digitLimit then 1.0 / 0.0
    else if magnitude < -digitLimit then 0.0
    else Float.ofScientific digits (exponent < 0) exponent.natAbs

/-- The float nearest to a power of ten. -/
def powerOfTen (exponent : Nat) : Float :=
  ofDecimal 1 exponent

/-- The largest power of ten that is a float. -/
def largestPower : Nat := 308

/-- Divide a float by `10 ^ exponent`, by the largest powers first. -/
def scaleDown : Nat → Float → Nat → Float
  | 0, value, _ => value
  | fuel + 1, value, exponent =>
    if exponent ≤ largestPower then value / powerOfTen exponent
    else if value == 0.0 then value
    else scaleDown fuel (value / powerOfTen largestPower) (exponent - largestPower)

/-- The float `digits * 10 ^ exponent`, where the digits are rounded first; `none` when the result
is not finite. -/
def scaled? (digits : Nat) (exponent : Int) : Option Float :=
  let significand := ofDecimal digits 0
  if exponent < 0 then some (scaleDown 8 significand exponent.natAbs)
  else if exponent.natAbs ≤ largestPower then
    let result := significand * powerOfTen exponent.natAbs
    if result.isInf then none else some result
  else if digits = 0 then some significand
  else none

/-- A float is whole when its fraction is zero. -/
def isWhole (value : Float) : Bool :=
  value.isFinite && value.floor == value

/-- The whole number of a whole float of magnitude below `2 ^ 53`. -/
def wholePart (value : Float) : Int :=
  if value < 0.0 then -((-value).toUInt64.toNat : Int) else value.toUInt64.toNat

end EditorFormat.Decimal
