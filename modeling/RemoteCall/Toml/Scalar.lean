/-
# Scalars of a document

Texts in four kinds of quotes, numbers in four bases, floating-point numbers, dates and times.
-/
import RemoteCall.Toml.Item
import RemoteCall.Toml.Reading

namespace RemoteCall.Toml

open Reading

/-! ## Blanks, line ends and comments -/

/-- Whether a character separates without ending a line. -/
def isSpace (c : Char) : Bool := c == ' ' || c == '\t'

/-- Whether a character may stand in a comment: any but the controls other than the tabulator. -/
def isPlain (c : Char) : Bool := c == '\t' || (0x20 ≤ c.toNat && c.toNat != 0x7F)

/-- Takes spaces. -/
def spaces : Reading Unit := do let _ ← span isSpace

/-- Takes the end of a line. -/
def newline : Reading Unit := exactly ['\n'] <|> exactly ['\r', '\n']

/-- Takes a comment up to the end of its line. -/
def comment : Reading Unit := do
  exactly ['#']
  let _ ← span isPlain

/-- Takes spaces, line ends, and comments that are followed by a line end. -/
def gap : Reading Unit := do
  let _ ← many <|
    (do let _ ← span1 isSpace) <|> (do let _ ← optional comment; newline)

/-! ## Texts -/

/-- Whether a character may stand for itself between double quotes. -/
def isBasic (c : Char) : Bool := isPlain c && c != '"' && c != '\\'

/-- Whether a character may stand for itself between single quotes. -/
def isLiteral (c : Char) : Bool := isPlain c && c != '\''

/-- Takes the number of a character in `n` digits of base sixteen. -/
def numbered (n : Nat) : Reading Char := do
  let digits ← count (Text.isDigit 16) n
  let v := Text.ofDigits 16 digits
  if v < 0xD800 || (0xDFFF < v && v < 0x110000) then pure (Char.ofNat v) else failure

/-- Takes what follows a backslash. -/
def escaped : Reading Char := do
  match ← satisfying (fun _ => true) with
  | 'b' => pure '\x08'
  | 't' => pure '\t'
  | 'n' => pure '\n'
  | 'f' => pure '\x0c'
  | 'r' => pure '\r'
  | '"' => pure '"'
  | '\\' => pure '\\'
  | 'u' => numbered 4
  | 'U' => numbered 8
  | _ => failure

/-- Takes an escape. -/
def escape : Reading Char := do
  exactly ['\\']
  escaped

/-- Takes a text between double quotes on one line. -/
def basic : Reading String := do
  exactly ['"']
  let cs ← many (satisfying isBasic <|> escape)
  exactly ['"']
  pure (String.ofList cs)

/-- Takes a text between single quotes on one line. -/
def literal : Reading String := do
  exactly ['\'']
  let cs ← span isLiteral
  exactly ['\'']
  pure (String.ofList cs)

/-- Takes a line end as one character. -/
def lineFeed : Reading (List Char) := do
  newline
  pure ['\n']

/-- Takes a backslash at the end of a line, and all blanks and line ends after it. -/
def continuation : Reading (List Char) := do
  exactly ['\\']
  spaces
  newline
  let _ ← many ((do let _ ← span1 isSpace) <|> newline)
  pure []

/-- Takes one or two quotes that do not end a text of several lines. -/
def innerQuotes (quote : Char) : Reading (List Char) := do
  notBefore [quote, quote, quote]
  span1 (· == quote)

/-- Takes a text of several lines between three quotes, given how its pieces are taken.  A line end
right behind the first three quotes does not count; up to two more quotes may stand in front of
the last three. -/
def lines (quote : Char) (piece : Reading (List Char)) : Reading String := do
  exactly [quote, quote, quote]
  let _ ← optional newline
  let pieces ← many (innerQuotes quote <|> piece)
  let quotes ← span1 (· == quote)
  if quotes.length < 3 || 5 < quotes.length then failure
  pure (String.ofList (pieces.flatten ++ quotes.drop 3))

/-- Takes a text of several lines between double quotes. -/
def basicLines : Reading String :=
  lines '"' (span1 isBasic <|> lineFeed <|> continuation <|> (do let c ← escape; pure [c]))

/-- Takes a text of several lines between single quotes. -/
def literalLines : Reading String := lines '\'' (span1 isLiteral <|> lineFeed)

/-- Takes a text. -/
def string : Reading Item := do
  let s ← basicLines <|> basic <|> literalLines <|> literal
  pure (.string s)

/-! ## Numbers -/

/-- Takes digits of a base; single underscores may stand between them. -/
def digits (base : Nat) : Reading (List Char) := do
  let first ← satisfying (Text.isDigit base)
  let rest ← many do
    let _ ← optional (exactly ['_'])
    satisfying (Text.isDigit base)
  pure (first :: rest)

/-- Takes a sign, and says whether it is a minus sign. -/
def sign : Reading Bool := do
  match ← optional (satisfying fun c => c == '+' || c == '-') with
  | some '-' => pure true
  | _ => pure false

/-- Takes a whole number in base ten without zeros in front. -/
def decimal : Reading (Bool × List Char) := do
  let negative ← sign
  let ds ← (do exactly ['0']; pure ['0']) <|> digits 10
  pure (negative, ds)

/-- Takes a whole number in a base that its front names. -/
def based (mark : Char) (base : Nat) : Reading Int := do
  exactly ['0', mark]
  let ds ← digits base
  pure (Text.ofDigits base ds : Nat)

/-- Takes a whole number of 64 bits. -/
def integer : Reading Item := do
  let i ← based 'x' 16 <|> based 'o' 8 <|> based 'b' 2 <|> do
    let (negative, ds) ← decimal
    let n : Int := (Text.ofDigits 10 ds : Nat)
    pure (if negative then -n else n)
  if Int64.minValue.toInt ≤ i && i ≤ Int64.maxValue.toInt then pure (.integer i) else failure

/-- Whether the number `mantissa * 10 ^ exponent` rounds to infinity as a double. -/
def overflows (mantissa : Nat) (exponent : Int) : Bool :=
  let places := (Nat.toDigits 10 mantissa).length + exponent
  if mantissa = 0 || places < 300 then false
  else if 320 < places then true
  else
    let least := Nat.pow 2 1024 - Nat.pow 2 970
    if 0 ≤ exponent then least ≤ mantissa * Nat.pow 10 exponent.toNat
    else least * Nat.pow 10 (-exponent).toNat ≤ mantissa

/-- Takes the digits after a point. -/
def fraction : Reading (List Char) := do
  exactly ['.']
  digits 10

/-- Takes an exponent. -/
def exponent : Reading Int := do
  let _ ← satisfying fun c => c == 'e' || c == 'E'
  let negative ← sign
  let n : Int := (Text.ofDigits 10 (← digits 10) : Nat)
  pure (if negative then -n else n)

/-- Takes a floating-point number.  One that is too large for a double is refused, unless it is
negative. -/
def float : Reading Item :=
  (do
    let (negative, whole) ← decimal
    let (part, scale) ←
      (do let e ← exponent; pure ([], e)) <|>
      (do
        let part ← fraction
        let e ← optional exponent
        pure (part, e.getD 0))
    if !negative && overflows (Text.ofDigits 10 (whole ++ part)) (scale - part.length)
    then failure else pure .float) <|>
  (do
    let _ ← sign
    exactly "inf".toList <|> exactly "nan".toList
    pure .float)

/-! ## Dates and times -/

/-- Takes a number of `n` digits between two bounds. -/
def bounded (n low high : Nat) : Reading Nat := do
  let v := Text.ofDigits 10 (← count (Text.isDigit 10) n)
  if low ≤ v && v ≤ high then pure v else failure

/-- The number of days of a month. -/
def daysOf (year month : Nat) : Nat :=
  if month = 2 then
    if year % 4 = 0 && (year % 100 != 0 || year % 400 = 0) then 29 else 28
  else if month = 4 || month = 6 || month = 9 || month = 11 then 30
  else 31

/-- Takes a date. -/
def date : Reading Unit := do
  let year ← bounded 4 0 9999
  exactly ['-']
  let month ← bounded 2 1 12
  exactly ['-']
  let _ ← bounded 2 1 (daysOf year month)

/-- Takes a time of a day. -/
def time : Reading Unit := do
  let _ ← bounded 2 0 23
  exactly [':']
  let _ ← bounded 2 0 59
  exactly [':']
  let _ ← bounded 2 0 60
  let _ ← optional (do
    exactly ['.']
    span1 (Text.isDigit 10))

/-- Takes the distance of a time from the common time. -/
def offset : Reading Unit :=
  (do let _ ← satisfying fun c => c == 'Z' || c == 'z') <|>
  (do
    let _ ← satisfying fun c => c == '+' || c == '-'
    let _ ← bounded 2 0 23
    exactly [':']
    let _ ← bounded 2 0 59)

/-- Takes a date, a time, or both. -/
def moment : Reading Item := do
  (do
    date
    let _ ← optional (do
      let _ ← satisfying fun c => c == 'T' || c == 't' || c == ' '
      time
      optional offset)) <|> time
  pure .moment

/-! ## All scalars -/

/-- Takes a truth value. -/
def boolean : Reading Item :=
  (do exactly "true".toList; pure (.boolean true)) <|>
  (do exactly "false".toList; pure (.boolean false))

/-- Takes a scalar.  What starts like a longer scalar is taken as that one. -/
def scalar : Reading Item := string <|> boolean <|> moment <|> float <|> integer

end RemoteCall.Toml
