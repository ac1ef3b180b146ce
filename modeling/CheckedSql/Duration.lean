/-
Lengths of time in whole nanoseconds, and their text: the largest unit that leaves a positive
integer part, with the exact fraction and no trailing zeros.
-/

namespace CheckedSql

/-- A length of time. -/
structure Duration where
  nanos : Nat
  deriving DecidableEq, Inhabited

namespace Duration

/-- So many seconds and so many nanoseconds more. -/
def ofParts (seconds nanos : Nat) : Duration :=
  ⟨seconds * 1000000000 + nanos⟩

/-- The whole seconds. -/
def seconds (d : Duration) : Nat :=
  d.nanos / 1000000000

/-- The nanoseconds beyond the whole seconds. -/
def subsecond (d : Duration) : Nat :=
  d.nanos % 1000000000

/-- A decimal fraction of `places` digits, given by its numerator, after a point and without its
trailing zeros; nothing when it is zero. -/
def fraction (places numerator : Nat) : String :=
  let digits := Nat.toDigits 10 numerator
  let padded := List.replicate (places - digits.length) '0' ++ digits
  let kept := (padded.reverse.dropWhile (· == '0')).reverse
  if numerator = 0 then "" else "." ++ String.ofList kept

/-- The text of a duration: seconds if there is a whole one, else milliseconds, else microseconds,
else nanoseconds. -/
def text (d : Duration) : String :=
  if 1000000000 ≤ d.nanos then
    toString d.seconds ++ fraction 9 d.subsecond ++ "s"
  else if 1000000 ≤ d.nanos then
    toString (d.nanos / 1000000) ++ fraction 6 (d.nanos % 1000000) ++ "ms"
  else if 1000 ≤ d.nanos then
    toString (d.nanos / 1000) ++ fraction 3 (d.nanos % 1000) ++ "µs"
  else
    toString d.nanos ++ "ns"

end Duration

end CheckedSql
