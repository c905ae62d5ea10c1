/-!
Readers of text. A reader takes characters off the front of a text and gives a value with what is
left, or finds nothing to read. One reader after another is `do`; `p <|> q` reads with `q` where `p`
finds nothing; `many` repeats a reader for as long as it finds something and the text gets shorter.
-/

namespace RootedHeap.Text

/-- What is left of a text, and how many characters that is, so that two rests of a text are
compared at once. -/
structure Rest where
  chars : List Char
  count : Nat
  count_eq : count = chars.length

namespace Rest

def ofList (s : List Char) : Rest := ⟨s, s.length, rfl⟩

/-- The rest is told by its characters. -/
theorem eq_of_chars {a b : Rest} (h : a.chars = b.chars) : a = b := by
  obtain ⟨_, _, rfl⟩ := a
  obtain ⟨_, _, rfl⟩ := b
  cases h
  rfl

/-- What is left after as many characters from the front. -/
def drop (s : Rest) (n : Nat) : Rest :=
  ⟨s.chars.drop n, s.count - n, by rw [s.count_eq, List.length_drop]⟩

end Rest

/-- A reader of values of type `α` from the front of a text. -/
abbrev Reader (α : Type) := StateT Rest Option α

namespace Reader

variable {α : Type}

def one (p : Char → Bool) : Reader Char := fun s =>
  match s.chars with
  | [] => none
  | c :: _ => if p c then some (c, s.drop 1) else none

def char (c : Char) : Reader Unit := do let _ ← one (· == c)

def literal : List Char → Reader Unit
  | [] => pure ()
  | c :: rest => do
    char c
    literal rest

/-- All characters up to the first without a property. -/
def takeWhile (p : Char → Bool) : Reader (List Char) := fun s =>
  let found := s.chars.takeWhile p
  some (found, s.drop found.length)

def atEnd : Reader Unit := fun s => if s.chars.isEmpty then some ((), s) else none

/-- What a reader finds, if it finds anything. -/
def maybe (item : Reader α) : Reader (Option α) := (some <$> item) <|> pure none

/-- What a reader finds, with nothing taken off. -/
def ahead (item : Reader α) : Reader α := fun s => (item s).map fun found => (found.1, s)

/-- What a reader finds, one item after another, until it finds nothing or takes nothing off. -/
def many (item : Reader α) (s : Rest) : Option (List α × Rest) :=
  match item s with
  | none => some ([], s)
  | some (a, rest) =>
    if rest.count < s.count then (many item rest).map fun found => (a :: found.1, found.2)
    else some ([], s)
termination_by s.count

/-- All characters up to the first without a property, and at least one. -/
def takeSome (p : Char → Bool) : Reader (List Char) := do
  let found ← takeWhile p
  if found.isEmpty then failure else return found

/-- Items with a separator between one and the next; there may be none. -/
def separated (separator : Reader Unit) (item : Reader α) : Reader (List α) :=
  (do
    let first ← item
    let more ← many (do separator; item)
    return first :: more) <|> pure []

/-- Reads a whole text. -/
def whole (item : Reader α) (s : List Char) : Option α :=
  (do
    let a ← item
    atEnd
    return a : Reader α).run' (.ofList s)

end Reader

end RootedHeap.Text
