/-
Writing a binary number with the fewest decimal digits.

A finite number stands for the interval of reals that round to it: from
halfway to the number below to halfway to the number above, ends included
when its significand is even. For one digit, two digits and so on the two
neighbours of the number among the decimals of that length are tried; the
first length with a neighbour in the interval wins, of two such neighbours
the closer one, of two equally close ones the larger.

Numbers are written positionally, whatever their size, and without a point
when they are whole.
-/
namespace MaterialScript.Decimal

/-- A finite binary number `significand * 2 ^ exponent` without its sign. -/
structure Binary where
  significand : Nat
  exponent : Int
  /-- The number below is half as far away as the number above. -/
  closerBelow : Bool

/-- A decimal number `digits * 10 ^ exponent`. -/
structure Tenfold where
  digits : Nat
  exponent : Int

/-- A power with a whole exponent; a negative one counts as zero. -/
def power (base : Nat) (exponent : Int) : Nat := base.pow exponent.toNat

namespace Binary

/-- The number that the bits of a finite double stand for, without its sign. -/
def ofBits (bits : UInt64) : Binary :=
  let biased := ((bits >>> 52) &&& 0x7FF).toNat
  let fraction := (bits &&& 0xFFFFFFFFFFFFF).toNat
  if biased = 0 then ⟨fraction, -1074, false⟩
  else ⟨0x10000000000000 + fraction, (biased : Int) - 1075, fraction = 0 ∧ 1 < biased⟩

/-- Compares a decimal with `quarters / 4` significands' worth of this number's last place. -/
def compareQuarters (b : Binary) (d : Tenfold) (quarters : Nat) : Ordering :=
  let place := b.exponent - 2
  compare (d.digits * power 10 d.exponent * power 2 (-place))
    (quarters * power 2 place * power 10 (-d.exponent))

/-- The decimal lies in the interval of reals that round to this number. -/
def contains (b : Binary) (d : Tenfold) : Bool :=
  let low := b.compareQuarters d (4 * b.significand - if b.closerBelow then 1 else 2)
  let high := b.compareQuarters d (4 * b.significand + 2)
  if b.significand % 2 = 0 then low.isGE && high.isLE else low.isGT && high.isLT

/-- The number divided by `10 ^ k`, rounded down. -/
def floorAt (b : Binary) (k : Int) : Nat :=
  b.significand * power 2 b.exponent * power 10 (-k) / (power 2 (-b.exponent) * power 10 k)

/-- The least `k` with the number below `10 ^ k`; every number above zero exceeds `10 ^ (-400)`. -/
def scale (b : Binary) : Int :=
  (Nat.toDigits 10 (b.floorAt (-400))).length - 400

/-- The closer of the two neighbours on the grid `10 ^ k` that lie in the interval, if one
does. -/
def onGrid? (b : Binary) (k : Int) : Option Tenfold :=
  let below : Tenfold := ⟨b.floorAt k, k⟩
  let above : Tenfold := ⟨b.floorAt k + 1, k⟩
  match b.contains below, b.contains above with
  | true, true =>
    if b.compareQuarters ⟨below.digits + above.digits, k⟩ (8 * b.significand) = .gt then some below
    else some above
  | true, false => some below
  | false, true => some above
  | false, false => none

/-- The shortest decimal; seventeen digits always suffice, and the exact value is the last
resort. -/
def shortest (b : Binary) : Tenfold :=
  let found := (List.range 17).findSome? fun (n : Nat) => b.onGrid? (b.scale - (n + 1))
  found.getD ⟨b.significand * power 2 b.exponent * power 5 (-b.exponent), min b.exponent 0⟩

end Binary

/-- Drops the zeros at the end of a list of digits, counting them. -/
def stripZeros (digits : List Char) : List Char × Nat :=
  let reversed := digits.reverse.dropWhile (· == '0')
  (reversed.reverse, digits.length - reversed.length)

/-- A decimal written positionally. -/
def Tenfold.render (d : Tenfold) : String :=
  let (digits, zeros) := stripZeros (Nat.toDigits 10 d.digits)
  let exponent := d.exponent + zeros
  if 0 ≤ exponent then String.ofList (digits ++ List.replicate exponent.toNat '0')
  else
    let places := exponent.natAbs
    let padded := List.replicate (places + 1 - digits.length) '0' ++ digits
    let (whole, fraction) := padded.splitAt (padded.length - places)
    String.ofList (whole ++ '.' :: fraction)

/-- A number with the fewest digits that read back to it. -/
def render (v : Float) : String :=
  if v.isNaN then "NaN"
  else
    let bits := v.toBits
    let sign := if bits >>> 63 = 1 then "-" else ""
    let b := Binary.ofBits bits
    sign ++ (if v.isInf then "inf" else if b.significand = 0 then "0" else b.shortest.render)

end MaterialScript.Decimal
