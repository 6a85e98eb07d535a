/-
Measured times.

A sample holds the times of one iteration in nanoseconds. Times are reported
in milliseconds.
-/
namespace MaterialScript.Benchmark

/-- The times of one iteration; a total is scan and load together. -/
structure Sample where
  scan : Nat
  /-- Checking brackets alone; the load phase checks them again. -/
  validate : Nat
  load : Nat

/-- Scan and load together. -/
def Sample.total (s : Sample) : Nat := s.scan + s.load

/-- The average of times, zero for none. -/
def average (times : List Nat) : Nat := times.foldl (· + ·) 0 / times.length

/-- The least of times, zero for none. -/
def least (times : List Nat) : Nat := times.min?.getD 0

/-- The greatest of times, zero for none. -/
def greatest (times : List Nat) : Nat := times.max?.getD 0

/-- The digits of a number, with zeros in front up to a width. -/
def padded (width n : Nat) : String :=
  let digits := toString n
  String.ofList (List.replicate (width - digits.length) '0') ++ digits

/-- A time in milliseconds with three places, rounded to nearest and halves to even. -/
def renderTime (nanoseconds : Nat) : String :=
  let micros := nanoseconds / 1000
  let left := nanoseconds % 1000
  let rounded := if 500 < left ∨ (left = 500 ∧ micros % 2 = 1) then micros + 1 else micros
  toString (rounded / 1000) ++ "." ++ padded 3 (rounded % 1000)

/-- A time in milliseconds with as many places as it has, one at least. -/
def exactTime (nanoseconds : Nat) : String :=
  let places := (padded 6 (nanoseconds % 1000000)).toList
  let kept := (places.reverse.dropWhile (· == '0')).reverse
  toString (nanoseconds / 1000000) ++ "." ++ (if kept.isEmpty then "0" else String.ofList kept)

end MaterialScript.Benchmark
