import EditorFormat.Decimal.Shortest

/-!
# Single precision

Floats of 24 significant bits, for numbers so near to one that their exponent needs no limit.
`seconds` gives a time in such a float, in the fewest digits that read back.
-/

namespace EditorFormat.Decimal

namespace Ratio

/-- The sum of two reals. -/
def add (first second : Ratio) : Ratio :=
  ⟨first.numerator * second.denominator + second.numerator * first.denominator,
    first.denominator * second.denominator⟩

/-- The whole part of `value / 2 ^ exponent`, and whether the rest is below, at or above one
half. -/
def divPower (value : Ratio) (exponent : Int) : Nat × Ordering :=
  let numerator :=
    if exponent < 0 then value.numerator * .pow 2 exponent.natAbs else value.numerator
  let denominator :=
    if exponent < 0 then value.denominator else value.denominator * .pow 2 exponent.natAbs
  (numerator / denominator, compare (2 * (numerator % denominator)) denominator)

end Ratio

/-- The number of significant bits. -/
def singleBits : Nat := 24

/-- The float of 24 significant bits that is nearest to a real; of two, the even one. -/
def Binary.single (value : Ratio) : Binary :=
  if value.numerator = 0 then ⟨0, 0, false⟩
  else
    let guess : Int := (value.numerator.log2 : Int) - value.denominator.log2 - (singleBits - 1 : Nat)
    let exponent := if (value.divPower guess).1 < .pow 2 (singleBits - 1) then guess - 1 else guess
    let (below, rest) := value.divPower exponent
    let rounded :=
      match rest with
      | .lt => below
      | .gt => below + 1
      | .eq => below + below % 2
    if rounded = .pow 2 singleBits then ⟨.pow 2 (singleBits - 1), exponent + 1, true⟩
    else ⟨rounded, exponent, rounded = .pow 2 (singleBits - 1)⟩

/-- Seconds have the fewest digits that read back, and never an exponent. -/
def secondsStyle : FloatStyle :=
  ⟨-1000, 1000, false, ""⟩

/-- The number of nanoseconds in a second. -/
def nanosPerSecond : Nat := 1000000000

/-- A number of nanoseconds as seconds. The whole seconds, the nanoseconds that are left and the
fraction that they make are rounded to floats before the sum is. -/
def seconds (nanoseconds : Nat) : String :=
  let whole := (Binary.single ⟨nanoseconds / nanosPerSecond, 1⟩).value
  let rest := (Binary.single ⟨nanoseconds % nanosPerSecond, 1⟩).value
  let fraction := (Binary.single ⟨rest.numerator, rest.denominator * nanosPerSecond⟩).value
  secondsStyle.writeMagnitude (.single (whole.add fraction))

end EditorFormat.Decimal
