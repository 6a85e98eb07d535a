/-
Reading a decimal number.

The accepted texts are an optional sign and then either digits with an
optional point before, inside or after them and an optional exponent, or one
of the words `inf`, `infinity` and `nan` in any letter case. The value is the
binary number nearest to the decimal one; a value too large for the format is
infinite, one too small is zero.
-/
namespace MaterialScript.Decimal

/-- The number a run of decimal digits denotes. -/
def natOfDigits (digits : List Char) : Nat :=
  digits.foldl (fun n c => 10 * n + (c.toNat - '0'.toNat)) 0

/-- `digits` as a whole number times `10 ^ exponent`, rounded to nearest.

Beyond `10 ^ 309` every value overflows and below `10 ^ (-324)` every value is
zero, so the power of ten that is formed stays small. -/
def nearest (digits : List Char) (exponent : Int) : Float :=
  let significant := digits.dropWhile (· == '0')
  let magnitude : Int := significant.length + exponent
  if significant.isEmpty || magnitude < -323 then 0
  else if magnitude > 310 then 1 / 0
  else Float.ofScientific (natOfDigits significant) (exponent < 0) exponent.natAbs

/-- A sign in front: whether it is a minus, and what follows. -/
def splitSign : List Char → Bool × List Char
  | '-' :: cs => (true, cs)
  | '+' :: cs => (false, cs)
  | cs => (false, cs)

/-- An exponent with its mark, or nothing at all. -/
def readExponent? : List Char → Option Int
  | [] => some 0
  | c :: cs =>
    if c = 'e' ∨ c = 'E' then
      let (negative, digits) := splitSign cs
      if digits.isEmpty || digits.any (!·.isDigit) then none
      else some (if negative then -(natOfDigits digits : Int) else natOfDigits digits)
    else none

/-- A point and the digits after it, if a point stands there. -/
def splitFraction : List Char → List Char × List Char
  | '.' :: cs => (cs.takeWhile Char.isDigit, cs.dropWhile Char.isDigit)
  | cs => ([], cs)

/-- A number written with digits and without a sign. -/
def readDigits? (cs : List Char) : Option Float :=
  let whole := cs.takeWhile Char.isDigit
  let (fraction, rest) := splitFraction (cs.dropWhile Char.isDigit)
  if whole.isEmpty && fraction.isEmpty then none
  else (readExponent? rest).map fun e => nearest (whole ++ fraction) (e - fraction.length)

/-- The words for values that are not finite. -/
def readWord? (cs : List Char) : Option Float :=
  match String.ofList (cs.map Char.toLower) with
  | "inf" | "infinity" => some (1 / 0)
  | "nan" => some (0 / 0)
  | _ => none

/-- The number a text denotes, if it denotes one. -/
def read? (text : String) : Option Float :=
  let (negative, cs) := splitSign text.toList
  ((readWord? cs).or (readDigits? cs)).map fun v => if negative then -v else v

end MaterialScript.Decimal
