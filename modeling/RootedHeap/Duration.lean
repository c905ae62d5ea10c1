/-!
Lengths of time in whole nanoseconds, and their text: the greatest unit among seconds, milliseconds,
microseconds and nanoseconds that is reached at least once, with the exact rest as a decimal
fraction that ends in no zero.
-/

namespace RootedHeap

/-- A length of time. -/
structure Duration where
  nanos : Nat
  deriving DecidableEq

namespace Duration

def zero : Duration := ⟨0⟩

def ofMillis (millis : Nat) : Duration := ⟨millis * 1000000⟩

/-- Both lengths after each other. -/
def add (a b : Duration) : Duration := ⟨a.nanos + b.nanos⟩

/-- `n` in exactly `width` decimal digits, the low ones. -/
def digits : (width n : Nat) → List Char
  | 0, _ => []
  | width + 1, n => digits width (n / 10) ++ [Nat.digitChar (n % 10)]

/-- The digits after the point, of which the last is no zero. -/
def fraction (width n : Nat) : String :=
  let shown := ((digits width n).reverse.dropWhile (· == '0')).reverse
  if shown.isEmpty then "" else "." ++ String.ofList shown

/-- A length counted in units of `10 ^ width` nanoseconds. -/
def inUnit (nanos width : Nat) (unit : String) : String :=
  let scale := Nat.pow 10 width
  toString (nanos / scale) ++ fraction width (nanos % scale) ++ unit

def text (d : Duration) : String :=
  if 1000000000 ≤ d.nanos then inUnit d.nanos 9 "s"
  else if 1000000 ≤ d.nanos then inUnit d.nanos 6 "ms"
  else if 1000 ≤ d.nanos then inUnit d.nanos 3 "µs"
  else inUnit d.nanos 0 "ns"

end Duration

end RootedHeap
