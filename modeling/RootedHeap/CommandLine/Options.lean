/-!
Options on a command line. A level of the command line has options, each with a long name and
perhaps a letter. An option is a flag, or takes a value, which stands after it or is attached to it
with `=` or, after a letter, with nothing. Flags may share one dash. No option is given twice on a
level. Arguments are looked at in order, and the first that settles the matter (a fault, a request
for help) ends the reading.
-/

namespace RootedHeap.CommandLine

/-- Why reading ends early. -/
inductive Stop where
  | refused
  | help
  | version
  deriving DecidableEq

inductive Effect (σ : Type) where
  | flag (set : σ → σ)
  | value (take : String → σ → Option σ)
  | stop (reason : Stop)

structure Switch (σ : Type) where
  long : String
  letter : Option Char
  effect : Effect σ

/-- What was read on a level: the settings, and the options given so far. -/
structure Progress (σ : Type) where
  settings : σ
  given : List String

namespace Progress

variable {σ : Type}

/-- One more option given, which must be new. -/
def give (p : Progress σ) (long : String) (settings : Option σ) : Except Stop (Progress σ) :=
  match settings with
  | some settings =>
    if p.given.contains long then .error .refused else .ok ⟨settings, long :: p.given⟩
  | none => .error .refused

end Progress

/-- What is expected next: any argument, or the value of an option. -/
inductive Expected (σ : Type) where
  | anything
  | valueOf (long : String) (take : String → σ → Option σ)

variable {σ : Type}

/-- An option by its long name, with the value attached to it, if any. -/
def readLong (switches : List (Switch σ)) (name : String) (attached : Option String)
    (p : Progress σ) : Except Stop (Progress σ × Expected σ) :=
  match switches.find? (·.long == name) with
  | none => .error .refused
  | some s =>
    match s.effect, attached with
    | .flag set, none => do return (← p.give s.long (some (set p.settings)), .anything)
    | .stop reason, none => .error reason
    | .value take, none => .ok (p, .valueOf s.long take)
    | .value take, some v => do return (← p.give s.long (take v p.settings), .anything)
    | _, some _ => .error .refused

/-- The value attached to a letter: what follows, without a leading `=`. -/
def attachedTo (rest : List Char) : String :=
  match rest with
  | '=' :: value => String.ofList value
  | value => String.ofList value

/-- Options by their letters, after one dash. -/
def readLetters (switches : List (Switch σ)) :
    List Char → Progress σ → Except Stop (Progress σ × Expected σ)
  | [], p => .ok (p, .anything)
  | c :: rest, p =>
    match switches.find? (·.letter == some c) with
    | none => .error .refused
    | some s =>
      match s.effect with
      | .flag set => do readLetters switches rest (← p.give s.long (some (set p.settings)))
      | .stop reason => .error reason
      | .value take =>
        if rest.isEmpty then .ok (p, .valueOf s.long take)
        else do return (← p.give s.long (take (attachedTo rest) p.settings), .anything)

/-- A long name and the value attached to it. -/
def splitLong (text : List Char) : String × Option String :=
  let name := String.ofList (text.takeWhile (· ≠ '='))
  match text.dropWhile (· ≠ '=') with
  | [] => (name, none)
  | _ :: value => (name, some (String.ofList value))

inductive Shape where
  | ending
  | long (text : List Char)
  | letters (text : List Char)
  | word (text : String)

/-- The kind of an argument. A single dash is a word. -/
def shapeOf (arg : String) : Shape :=
  match arg.toList with
  | ['-', '-'] => .ending
  | '-' :: '-' :: text => .long text
  | ['-'] => .word arg
  | '-' :: text => .letters text
  | _ => .word arg

/-- Reads the arguments of a level up to its first word, which is given back with the arguments
after it. -/
def readLevel (switches : List (Switch σ)) :
    Expected σ → List String → Progress σ → Except Stop (σ × Option (String × List String))
  | .anything, [], p => .ok (p.settings, none)
  | .valueOf .., [], _ => .error .refused
  | .anything, arg :: rest, p =>
    match shapeOf arg with
    | .ending => if rest.isEmpty then .ok (p.settings, none) else .error .refused
    | .word text => .ok (p.settings, some (text, rest))
    | .long text => do
      let (name, attached) := splitLong text
      let (p, expected) ← readLong switches name attached p
      readLevel switches expected rest p
    | .letters text => do
      let (p, expected) ← readLetters switches text p
      readLevel switches expected rest p
  | .valueOf long take, arg :: rest, p =>
    match shapeOf arg with
    | .word text => do
      let p ← p.give long (take text p.settings)
      readLevel switches .anything rest p
    | _ => .error .refused

end RootedHeap.CommandLine
