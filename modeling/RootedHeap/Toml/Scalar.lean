import RootedHeap.Text.Reader
import RootedHeap.Toml.Value

/-!
Blanks, comments, text between quotes, numbers, days and times of a TOML document.
-/

namespace RootedHeap.Toml

open Text Reader

/-! ### Blanks -/

def isBlank (c : Char) : Bool := c == ' ' || c == '\t'

/-- A character that a comment or a text may hold as it is: no control character but the tab. -/
def isShown (c : Char) : Bool := c == '\t' || (0x20 ≤ c.toNat && c.toNat != 0x7F)

def blanks : Reader Unit := do let _ ← takeWhile isBlank

/-- The end of a line: a line feed, alone or after a carriage return. -/
def newline : Reader Unit := char '\n' <|> (do char '\r'; char '\n')

def comment : Reader Unit := do
  char '#'
  let _ ← takeWhile isShown

/-- The end of a line or of the document. -/
def lineEnd : Reader Unit := newline <|> atEnd

/-- What may follow on a line that is complete. -/
def lineRest : Reader Unit := do
  blanks
  let _ ← maybe comment
  lineEnd

/-- Blanks, line ends and comments, over any number of lines. -/
def blankLines : Reader Unit := do
  blanks
  let _ ← many (do
    let _ ← maybe comment
    newline
    blanks)

/-! ### Text between quotes -/

/-- The value of digits in a base. -/
def digitsValue (base : Nat) (digits : List Char) : Nat :=
  digits.foldl (fun n c =>
    let digit := if c.isDigit then c.toNat - '0'.toNat else c.toLower.toNat - 'a'.toNat + 10
    n * base + digit) 0

def isHexDigit (c : Char) : Bool := c.isDigit || ('a' ≤ c.toLower && c.toLower ≤ 'f')

def exactly (p : Char → Bool) : Nat → Reader (List Char)
  | 0 => pure []
  | n + 1 => do
    let c ← one p
    let rest ← exactly p n
    return c :: rest

/-- The character of a number in `n` hexadecimal digits; half of a pair is none. -/
def numbered (n : Nat) : Reader Char := do
  let code := digitsValue 16 (← exactly isHexDigit n)
  if code.isValidChar then return Char.ofNat code else failure

def escape : Reader Char := do
  char '\\'
  match ← one fun _ => true with
  | 'b' => return '\x08'
  | 't' => return '\t'
  | 'n' => return '\n'
  | 'f' => return '\x0C'
  | 'r' => return '\r'
  | '"' => return '"'
  | '\\' => return '\\'
  | 'u' => numbered 4
  | 'U' => numbered 8
  | _ => failure

/-- A backslash at the end of a line, with all blanks and line ends up to the next text. -/
def lineJoin : Reader Unit := do
  char '\\'
  blanks
  newline
  let _ ← many (newline <|> (do let _ ← one isBlank))

/-- Characters that stand for themselves between quotes. -/
def plain (quote : Char) (escapes : Bool) : Reader (List Char) :=
  takeSome fun c => isShown c && c != quote && !(escapes && c == '\\')

/-- A piece of a text on one line. -/
def piece (quote : Char) (escapes : Bool) : Reader (List Char) :=
  plain quote escapes <|> (if escapes then (do return [← escape]) else failure)

/-- A text on one line, between quotes. -/
def lineText (quote : Char) (escapes : Bool) : Reader String := do
  char quote
  let pieces ← many (piece quote escapes)
  char quote
  return String.ofList pieces.flatten

/-- The end of a line within a text. -/
def lineFeed : Reader (List Char) := do
  newline
  return ['\n']

/-- One or two quotes that end no text. -/
def innerQuotes (quote : Char) : Reader (List Char) :=
  let inner := one fun c => c != quote
  (do
    literal [quote, quote]
    let _ ← ahead inner
    return [quote, quote]) <|>
  (do
    char quote
    let _ ← ahead inner
    return [quote])

/-- A piece of a text over several lines. -/
def longPiece (quote : Char) (escapes : Bool) : Reader (List Char) :=
  (if escapes then (do lineJoin; return []) else failure)
  <|> piece quote escapes <|> lineFeed <|> innerQuotes quote

/-- One or two quotes right before the three that end a text. -/
def lastQuotes (quote : Char) : Reader (List Char) :=
  let closing := [quote, quote, quote]
  (do
    literal [quote, quote]
    ahead (literal closing)
    return [quote, quote]) <|>
  (do
    char quote
    ahead (literal closing)
    return [quote]) <|> pure []

/-- A text over several lines, between three quotes on each side. A line end right after the first
three is no part of it. -/
def longText (quote : Char) (escapes : Bool) : Reader String := do
  literal [quote, quote, quote]
  let _ ← maybe newline
  let pieces ← many (longPiece quote escapes)
  let last ← lastQuotes quote
  literal [quote, quote, quote]
  return String.ofList (pieces.flatten ++ last)

def text : Reader String :=
  longText '"' true <|> lineText '"' true <|> longText '\'' false <|> lineText '\'' false

/-! ### Numbers -/

/-- Digits with single underscores between them. -/
def digitsWith (p : Char → Bool) : Reader (List Char) := do
  let first ← one p
  let more ← many (one p <|> (do char '_'; one p))
  return first :: more

/-- Whether there is a minus sign; a plus sign may stand too. -/
def sign : Reader Bool := do
  let found ← maybe (one fun c => c == '+' || c == '-')
  return found == some '-'

/-- Digits of a whole number in decimal, which starts with no 0 unless it is 0. -/
def wholeDigits : Reader (List Char) :=
  (do
    let _ ← ahead (one fun c => c != '0')
    digitsWith Char.isDigit) <|> (do return [← one Char.isDigit])

/-- Whether a number fits in 64 bits with a sign. -/
def fits (n : Int) : Bool := -0x8000000000000000 ≤ n && n < 0x8000000000000000

/-- A number that fits. -/
def fitting (n : Int) : Reader Value := if fits n then return .integer n else failure

/-- A whole number after the letter of its base. -/
def based (letter : Char) (base : Nat) (p : Char → Bool) : Reader Value := do
  literal ['0', letter]
  let digits ← digitsWith p
  fitting (digitsValue base digits)

/-- A whole number with its sign applied. -/
def signed (negative : Bool) (n : Nat) : Int := if negative then -n else n

def integer : Reader Value :=
  based 'x' 16 isHexDigit
  <|> based 'o' 8 (fun c => '0' ≤ c && c ≤ '7')
  <|> based 'b' 2 (fun c => c == '0' || c == '1')
  <|> (do
    let negative ← sign
    let digits ← wholeDigits
    fitting (signed negative (digitsValue 10 digits)))

def fraction : Reader (List Char) := do
  char '.'
  digitsWith Char.isDigit

def exponent : Reader Int := do
  let _ ← one fun c => c == 'e' || c == 'E'
  let negative ← sign
  let digits ← digitsWith Char.isDigit
  return signed negative (digitsValue 10 digits)

/-- A number with a fraction, an exponent or both. One above all binary64 numbers is refused. -/
def decimal : Reader Value := do
  let negative ← sign
  let digits ← wholeDigits
  let after ← maybe fraction
  let power ← maybe exponent
  if after.isNone && power.isNone then failure
  let shown := after.getD []
  let d : Decimal := ⟨negative, digitsValue 10 (digits ++ shown), power.getD 0 - shown.length⟩
  if !negative && d.isTooGreat then failure
  return .real (.decimal d)

def special : Reader Value := do
  let negative ← sign
  (do
    literal ['i', 'n', 'f']
    return .real (.infinity negative)) <|>
  (do
    literal ['n', 'a', 'n']
    return .real .undefined)

/-! ### Days and times -/

/-- A number of two digits within bounds. -/
def twoDigits (lower upper : Nat) : Reader Nat := do
  let n := digitsValue 10 (← exactly Char.isDigit 2)
  if lower ≤ n && n ≤ upper then return n else failure

/-- The number of days of a month. -/
def daysOf (year month : Nat) : Nat :=
  if month = 2 then
    if year % 4 = 0 ∧ (year % 100 ≠ 0 ∨ year % 400 = 0) then 29 else 28
  else if month = 4 ∨ month = 6 ∨ month = 9 ∨ month = 11 then 30
  else 31

def date : Reader Date := do
  let year := digitsValue 10 (← exactly Char.isDigit 4)
  char '-'
  let month ← twoDigits 1 12
  char '-'
  let day ← twoDigits 1 31
  if daysOf year month < day then failure
  return ⟨year, month, day⟩

/-- A time of day. The sixtieth second is there for leap seconds. -/
def time : Reader Time := do
  let hour ← twoDigits 0 23
  char ':'
  let minute ← twoDigits 0 59
  char ':'
  let second ← twoDigits 0 60
  let digits ← maybe (do
    char '.'
    takeSome Char.isDigit)
  return ⟨hour, minute, second, digits.getD []⟩

/-- How far a clock is from universal time. -/
def offset : Reader Offset :=
  (do
    let _ ← one fun c => c == 'Z' || c == 'z'
    return .universal) <|>
  (do
    let side ← one fun c => c == '+' || c == '-'
    let hours ← twoDigits 0 23
    char ':'
    let minutes ← twoDigits 0 59
    return .away (side == '-') hours minutes)

/-- The time of a moment, after its day. -/
def timeAfterDate : Reader (Time × Option Offset) := do
  let _ ← one fun c => c == 'T' || c == 't' || c == ' '
  let t ← time
  let away ← maybe offset
  return (t, away)

/-- A day, a time of day, or both. -/
def dateTime : Reader Value :=
  (do
    let day ← date
    match ← maybe timeAfterDate with
    | none => return .dateTime (.day day)
    | some (t, away) => return .dateTime (.moment day t away)) <|>
  (do return .dateTime (.time (← time)))

/-! ### Values of one piece -/

def boolean : Reader Value :=
  (do
    literal "true".toList
    return .boolean true) <|>
  (do
    literal "false".toList
    return .boolean false)

/-- A value that holds no other values. -/
def scalar : Reader Value :=
  (do return .text (← text)) <|> boolean <|> dateTime <|> decimal <|> special <|> integer

end RootedHeap.Toml
