/-!
# The shortest decimal of a float

A finite positive binary64 float is `mantissa * 2 ^ exponent`. Every real strictly between the
midpoints to its two neighbours reads back as that float, and the midpoints do too when the
mantissa is even. `shortest` gives the decimal with the fewest digits that reads back; of two
such decimals it takes the nearer one.
-/

namespace EditorFormat.Decimal

/-- A positive real `numerator / denominator`. -/
structure Ratio where
  numerator : Nat
  denominator : Nat

namespace Ratio

/-- The real `n * 2 ^ exponent`. -/
def ofBinary (n : Nat) (exponent : Int) : Ratio :=
  if exponent < 0 then ⟨n, .pow 2 exponent.natAbs⟩ else ⟨n * .pow 2 exponent.natAbs, 1⟩

/-- The real `n * 10 ^ exponent`. -/
def ofDecimal (n : Nat) (exponent : Int) : Ratio :=
  if exponent < 0 then ⟨n, .pow 10 exponent.natAbs⟩ else ⟨n * .pow 10 exponent.natAbs, 1⟩

/-- Order of reals. -/
def lt (first second : Ratio) : Bool :=
  first.numerator * second.denominator < second.numerator * first.denominator

/-- Order of reals. -/
def le (first second : Ratio) : Bool :=
  !lt second first

/-- The whole part of `value / 10 ^ exponent`. -/
def floorDiv (value : Ratio) (exponent : Int) : Nat :=
  if exponent < 0 then value.numerator * .pow 10 exponent.natAbs / value.denominator
  else value.numerator / (value.denominator * .pow 10 exponent.natAbs)

/-- Twice the value. -/
def double (value : Ratio) : Ratio :=
  ⟨2 * value.numerator, value.denominator⟩

end Ratio

/-- The float `mantissa * 2 ^ exponent`; `atPower` says that the next smaller float is only half
as far away as the next larger one. -/
structure Binary where
  mantissa : Nat
  exponent : Int
  atPower : Bool

namespace Binary

/-- The magnitude of a finite float. -/
def ofFloat (value : Float) : Binary :=
  let bits : Nat := value.toBits.toNat
  let fraction : Nat := bits % .pow 2 52
  let biased : Nat := bits / .pow 2 52 % .pow 2 11
  if biased = 0 then ⟨fraction, -1074, false⟩
  else ⟨fraction + .pow 2 52, (biased : Int) - 1075, fraction = 0 && 1 < biased⟩

/-- The real value. -/
def value (float : Binary) : Ratio :=
  .ofBinary float.mantissa float.exponent

/-- The midpoint to the next smaller float. -/
def lower (float : Binary) : Ratio :=
  if float.atPower then .ofBinary (4 * float.mantissa - 1) (float.exponent - 2)
  else .ofBinary (2 * float.mantissa - 1) (float.exponent - 1)

/-- The midpoint to the next larger float. -/
def upper (float : Binary) : Ratio :=
  .ofBinary (2 * float.mantissa + 1) (float.exponent - 1)

/-- Whether a real reads back as the float. -/
def readsBack (float : Binary) (real : Ratio) : Bool :=
  if float.mantissa % 2 = 0 then float.lower.le real && real.le float.upper
  else float.lower.lt real && real.lt float.upper

end Binary

/-- The number of digits before the point; for a value below one, minus the number of zeros that
follow the point. -/
def magnitude (value : Ratio) : Int :=
  let whole := value.numerator / value.denominator
  if whole ≠ 0 then (Nat.toDigits 10 whole).length
  else go 330 0
where
  /-- Count the zeros that follow the point. -/
  go : Nat → Nat → Int
    | 0, zeros => -zeros
    | fuel + 1, zeros =>
      if .pow 10 (zeros + 1) * value.numerator < value.denominator then go fuel (zeros + 1)
      else -zeros

/-- The best decimal with a unit of `10 ^ exponent`: of the two neighbours of the value on that
grid, the nearer one that reads back. The lower one wins a tie when it is even. -/
def onGrid? (float : Binary) (exponent : Int) : Option Nat :=
  let below := float.value.floorDiv exponent
  let low := Ratio.ofDecimal below exponent
  let high := Ratio.ofDecimal (below + 1) exponent
  match below ≠ 0 && float.readsBack low, float.readsBack high with
  | true, true =>
    let middle := Ratio.ofDecimal (2 * below + 1) exponent
    let twice := float.value.double
    if twice.lt middle || (!middle.lt twice && below % 2 = 0) then some below
    else some (below + 1)
  | true, false => some below
  | false, true => some (below + 1)
  | false, false => none

/-- The digits and the exponent of the shortest decimal of a positive float. Seventeen digits
always suffice. -/
def shortest (float : Binary) : Nat × Int :=
  let size := magnitude float.value
  let rec search : Nat → Nat → Nat × Int
    | 0, digits => (float.value.floorDiv (size - digits), size - digits)
    | fuel + 1, digits =>
      match onGrid? float (size - digits) with
      | some found => (found, size - digits)
      | none => search fuel (digits + 1)
  search 17 1

/-- Drop the zeros at the end of a number, counting them. -/
def trimZeros : Nat → Nat × Int → Nat × Int
  | 0, decimal => decimal
  | fuel + 1, (digits, exponent) =>
    if digits % 10 = 0 ∧ digits ≠ 0 then trimZeros fuel (digits / 10, exponent + 1)
    else (digits, exponent)

/-- Where a float is written with an exponent, and with which mark. -/
structure FloatStyle where
  /-- The least power of ten of a first digit that is written by position. -/
  least : Int
  /-- The greatest power of ten of a first digit that is written by position. -/
  greatest : Int
  /-- Whether a whole number ends in a point and a zero. -/
  pointZero : Bool
  /-- The sign of a positive exponent. -/
  plus : String

/-- The shortest decimal of a float that is not negative. -/
def FloatStyle.writeMagnitude (style : FloatStyle) (float : Binary) : String :=
  if float.mantissa = 0 then if style.pointZero then "0.0" else "0"
  else
    let (number, exponent) := trimZeros 20 (shortest float)
    let digits := Nat.toDigits 10 number
    let point : Int := digits.length + exponent
    let first := point - 1
    let zeros (n : Int) := String.ofList (List.replicate n.toNat '0')
    if style.least ≤ first ∧ first ≤ style.greatest then
      if exponent ≥ 0 then
        String.ofList digits ++ zeros exponent ++ (if style.pointZero then ".0" else "")
      else if 0 < point then
        String.ofList (digits.take point.toNat) ++ "." ++ String.ofList (digits.drop point.toNat)
      else "0." ++ zeros (-point) ++ String.ofList digits
    else
      let fraction := if digits.length = 1 then "" else "." ++ String.ofList (digits.drop 1)
      let mark := if first < 0 then "-" else style.plus
      String.ofList (digits.take 1) ++ fraction ++ "e" ++ mark ++ toString first.natAbs

/-- The shortest decimal of a finite float in the given style. -/
def FloatStyle.write (style : FloatStyle) (value : Float) : String :=
  let sign := if value.toBits.toNat / (UInt64.size / 2) = 1 then "-" else ""
  sign ++ style.writeMagnitude (.ofFloat value)

end EditorFormat.Decimal
