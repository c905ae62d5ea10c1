/-!
Handles and words. A cell is named by a handle, a natural number, and 0 is the null reference. A
slot holds a word of 64 bits with a sign: a positive word names a cell, 0 is null, and a negative
word is primitive data. Handles from 2⁶³ on fit in no slot, so a stored handle is never read back as
data.
-/

namespace RootedHeap

/-- The number of a cell; 0 is the null reference. -/
abbrev Handle := Nat

/-- What one slot holds. -/
abbrev Word := Int64

namespace Handle

/-- The null reference, which names no cell. -/
def null : Handle := 0

def greatest : Handle := 0x7FFFFFFFFFFFFFFF

/-- The word with the same 64 bits. -/
def toWord (h : Handle) : Word := Int64.ofNat h

/-- The word that stores a handle, if one does. -/
def store? (h : Handle) : Option Word := if h ≤ greatest then some (toWord h) else none

end Handle

namespace Word

/-- Whether a word is a reference (null included) rather than primitive data. -/
def isReference (w : Word) : Bool := 0 ≤ w

/-- The handle with the same 64 bits. -/
def toHandle (w : Word) : Handle := w.toUInt64.toNat

/-- The cell that a word names, if it names one. -/
def target? (w : Word) : Option Handle := if 0 < w then some (toHandle w) else none

/-- A count as a word, modulo 2⁶⁴. -/
def ofCount (n : Nat) : Word := Int64.ofNat n

/-- The word `n` below another. There is none below the least word. -/
def below? (w : Word) (n : Nat) : Option Word :=
  if -0x8000000000000000 ≤ w.toInt - n then some (Int64.ofInt (w.toInt - n)) else none

def text (w : Word) : String := toString w.toInt

end Word

end RootedHeap
