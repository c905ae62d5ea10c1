/-!
Sources of draws. A program that makes random choices takes them from a generator, which may be any
state that yields a number below a bound and a next state.
-/

namespace RootedHeap

/-- A generator of numbers below a bound. -/
class Draws (G : Type) where
  /-- A number below `n`, for `n` above 0, and the generator of the draws that follow. -/
  below : G → (n : Nat) → Nat × G

end RootedHeap
