/-!
The values of a TOML document. A table remembers how it came to be, since that decides what a
document may still add to it.
-/

namespace RootedHeap.Toml

/-- How a table came to be. -/
inductive Origin where
  | header
  /-- On the way to a header. -/
  | implied
  /-- On the way to a dotted key. -/
  | dotted
  | inline
  deriving DecidableEq

/-- A decimal number: the mantissa times ten to the exponent. -/
structure Decimal where
  negative : Bool
  mantissa : Nat
  exponent : Int
  deriving DecidableEq

/-- A number with a fraction or an exponent, or one of the two that are no numbers. -/
inductive Real where
  | decimal (d : Decimal)
  | infinity (negative : Bool)
  | undefined
  deriving DecidableEq

structure Date where
  year : Nat
  month : Nat
  day : Nat
  deriving DecidableEq

/-- A time of day, its fraction of a second as digits. -/
structure Time where
  hour : Nat
  minute : Nat
  second : Nat
  fraction : List Char
  deriving DecidableEq

/-- How far a clock is from universal time. -/
inductive Offset where
  | universal
  | away (behind : Bool) (hours minutes : Nat)
  deriving DecidableEq

/-- A day, a time of day, or both, the last with or without an offset. -/
inductive DateTime where
  | day (date : Date)
  | time (time : Time)
  | moment (date : Date) (time : Time) (offset : Option Offset)
  deriving DecidableEq

inductive Value where
  | text (s : String)
  | integer (n : Int)
  | real (x : Real)
  | boolean (b : Bool)
  | dateTime (d : DateTime)
  | array (items : List Value)
  | table (origin : Origin) (entries : List (String × Value))
  /-- Tables under a header that stands once for each of them. -/
  | tables (elements : List (List (String × Value)))

/-- The entries of a table, no key twice. -/
abbrev Entries := List (String × Value)

namespace Decimal

/-- The number of decimal digits; 0 has none. -/
def digitCount (n : Nat) : Nat := if n = 0 then 0 else (Nat.toDigits 10 n).length

/-- The least number that no binary64 number is nearest to: halfway from the greatest finite one to
2¹⁰²⁴. -/
def limit : Nat := Nat.pow 2 1024 - Nat.pow 2 970

/-- Whether the number without its sign is too great for binary64. The digits before the point
decide for all but one count of them, so no power of ten grows with the exponent. -/
def isTooGreat (d : Decimal) : Bool :=
  let places := digitCount d.mantissa + d.exponent
  if d.mantissa = 0 ∨ places ≤ 308 then false
  else if 309 < places then true
  else if 0 ≤ d.exponent then decide (limit ≤ d.mantissa * Nat.pow 10 d.exponent.toNat)
  else decide (limit * Nat.pow 10 (-d.exponent).toNat ≤ d.mantissa)

end Decimal

end RootedHeap.Toml
