import ApiDoc.Text.Basic

/-!
# Shortest decimal text of a double

The fewest decimal digits that read back as the same double, and of those the nearest to it. The
double is taken as an exact fraction; for one digit, two digits and so on, the two neighbours of
the value on that decimal grid are tested against the interval of reals that round to the value.
-/

namespace ApiDoc.Decimal

/-- A finite positive double as an exact fraction, with the interval of reals that round to it.
All three numerators stand over `denominator`. -/
structure Rounding where
  /-- The lower end of the interval. -/
  low : Nat
  /-- The double itself. -/
  value : Nat
  /-- The upper end of the interval. -/
  high : Nat
  /-- What the three are divided by. -/
  denominator : Nat
  /-- Whether the ends themselves round to the double: they do iff its significand is even. -/
  closed : Bool

/-- The rounding interval of the double with the given exponent and fraction fields. Below a power
of two the gap to the next double is half the gap above it. -/
def Rounding.ofFields (exponent fraction : Nat) : Rounding :=
  let significand := if exponent = 0 then fraction else fraction + Nat.pow 2 52
  let lower := if fraction = 0 && 1 < exponent then 1 else 2
  let power : Int := (max exponent 1 : Nat) - 1077
  let unit := Nat.pow 2 power.toNat
  { low := (4 * significand - lower) * unit
    value := 4 * significand * unit
    high := (4 * significand + 2) * unit
    denominator := Nat.pow 2 (-power).toNat
    closed := significand % 2 = 0 }

/-- Whether the real `numerator / denominator` reads back as the double. -/
def Rounding.contains (r : Rounding) (numerator denominator : Nat) : Bool :=
  let low := r.low * denominator
  let high := r.high * denominator
  let x := numerator * r.denominator
  if r.closed then low ≤ x && x ≤ high else low < x && x < high

/-- The exponent of the leading decimal digit of a positive fraction. -/
def leadingExponent (numerator denominator : Nat) : Int :=
  let estimate : Int :=
    (Nat.toDigits 10 numerator).length - (Nat.toDigits 10 denominator).length
  if denominator * Nat.pow 10 estimate.toNat ≤ numerator * Nat.pow 10 (-estimate).toNat then
    estimate
  else estimate - 1

/-- The nearest multiple of `10 ^ exponent` that reads back as the double, as a count of that unit;
an exact tie goes to the even count. -/
def Rounding.onGrid? (r : Rounding) (exponent : Int) : Option Nat :=
  let unit := Nat.pow 10 exponent.toNat
  let part := Nat.pow 10 (-exponent).toNat
  let below := r.value * part / (r.denominator * unit)
  let above := below + 1
  let doubled := 2 * (r.value * part)
  let middle := (below + above) * (r.denominator * unit)
  let belowIn := r.contains (below * unit) part
  let aboveIn := r.contains (above * unit) part
  if belowIn && aboveIn then
    if doubled < middle then some below
    else if middle < doubled then some above
    else if below % 2 = 0 then some below else some above
  else if belowIn then some below
  else if aboveIn then some above
  else none

/-- The digits of a decimal number `0.d₁d₂… · 10 ^ point`. -/
structure Digits where
  /-- The digits, without zeros at the end. -/
  digits : Text
  /-- Where the point stands, counted from before the first digit. -/
  point : Int

/-- The shortest digits that read back, trying `count` digits and then more, `fuel` times. -/
def Rounding.search (r : Rounding) (leading : Int) : Nat → Nat → Digits
  | 0, _ => { digits := ['0'], point := 1 }
  | fuel + 1, count =>
    let exponent := leading + 1 - count
    match r.onGrid? exponent with
    | none => r.search leading fuel (count + 1)
    | some n =>
      let written := Text.ofNat n
      { digits := (written.reverse.dropWhile (· = '0')).reverse
        point := exponent + written.length }

/-- The shortest digits of a finite positive double; seventeen always suffice. -/
def Rounding.shortest (r : Rounding) : Digits :=
  r.search (leadingExponent r.value r.denominator) 17 1

/-- How a number is laid out: the positions of the point for which it is written without an
exponent. -/
structure Layout where
  /-- The least position of the point of a number written without an exponent. -/
  minPoint : Int
  /-- The greatest one. -/
  maxPoint : Int

/-- The digits laid out. Without an exponent there is always a digit after the point; an exponent
has a sign and at least two digits. -/
def Layout.render (layout : Layout) (d : Digits) : Text :=
  let count : Int := d.digits.length
  if layout.minPoint ≤ d.point && d.point ≤ layout.maxPoint then
    if d.point ≤ 0 then
      '0' :: '.' :: List.replicate (-d.point).toNat '0' ++ d.digits
    else if count ≤ d.point then
      d.digits ++ List.replicate (d.point - count).toNat '0' ++ ['.', '0']
    else d.digits.take d.point.toNat ++ '.' :: d.digits.drop d.point.toNat
  else
    let exponent := d.point - 1
    let mantissa :=
      match d.digits with
      | [] => []
      | [c] => [c]
      | c :: rest => c :: '.' :: rest
    let digits := Text.ofNat exponent.natAbs
    let padded := List.replicate (2 - digits.length) '0' ++ digits
    mantissa ++ 'e' :: (if exponent < 0 then '-' else '+') :: padded

/-- The text of the double with the given bits. -/
def Layout.textOfBits (layout : Layout) (bits : Nat) : Text :=
  let negative := Nat.pow 2 63 ≤ bits
  let exponent := bits / Nat.pow 2 52 % Nat.pow 2 11
  let fraction := bits % Nat.pow 2 52
  let sign : Text := if negative then ['-'] else []
  if exponent = 2047 then
    if fraction = 0 then sign ++ "inf".toList else "nan".toList
  else if exponent = 0 && fraction = 0 then sign ++ "0.0".toList
  else sign ++ layout.render (Rounding.ofFields exponent fraction).shortest

end ApiDoc.Decimal
