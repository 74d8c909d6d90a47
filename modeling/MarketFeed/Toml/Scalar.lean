import MarketFeed.Text.Reader

/-!
Scalars of TOML 1.0 other than text: integers of 64 bits, floats, booleans, and dates and times that
exist in the calendar. Of a float only its form and that it does not run over is kept, of a moment
only that it is one.
-/
namespace MarketFeed.Toml

open MarketFeed.Text MarketFeed.Text.Reader

inductive Scalar where
  | text (t : String)
  | integer (n : Int)
  | float
  | bool (b : Bool)
  | moment
  deriving DecidableEq, Repr

/- Whether every underscore stands between digits. `behindDigit` tells what stood before. -/
def grouped (behindDigit : Bool) : List Char → Bool
  | [] => behindDigit
  | '_' :: rest => behindDigit && grouped false rest
  | _ :: rest => grouped true rest

def groupedDigits (isDigit : Char → Bool) : Reader (List Char) := do
  let run ← takeSome fun c => isDigit c || c == '_'
  if grouped false run then return run.filter (· != '_') else failure

def wholeDigits : Reader (List Char) := do
  match ← groupedDigits Char.isDigit with
  | '0' :: _ :: _ => failure
  | digits => return digits

def isNegative : Reader Bool := do return (← optional (oneOf ['+', '-'])) == some '-'

def integerBound : Nat := 0x8000000000000000

def decimalInteger : Reader Scalar := do
  let negative ← isNegative
  let digits ← wholeDigits
  if negative then return .integer (-(← numberBelow? 10 (integerBound + 1) digits : Nat))
  else return .integer (← numberBelow? 10 integerBound digits : Nat)

def basedInteger (mark : String) (base : Nat) (isDigit : Char → Bool) : Reader Scalar := do
  word mark
  let digits ← groupedDigits isDigit
  return .integer (← numberBelow? base integerBound digits : Nat)

def integer : Reader Scalar :=
  basedInteger "0x" 16 isHexDigit <|>
  basedInteger "0o" 8 (fun c => '0' ≤ c && c ≤ '7') <|>
  basedInteger "0b" 2 (fun c => c == '0' || c == '1') <|>
  decimalInteger

/- The least number that rounds to infinity in 64-bit floating point. -/
def floatBound : Nat := Nat.pow 2 1024 - Nat.pow 2 970

def floatPlaces : Nat := 309

/- Whether the number with these digits, times a power of ten, is `floatBound` or more. The digits
before the point decide, as the bound is whole. -/
def floatOverflows (digits : List Char) (exponent : Int) : Bool :=
  let significant := digits.dropWhile (· == '0')
  let places := significant.length + exponent
  if significant.isEmpty then false
  else if places = floatPlaces then
    floatBound ≤ numberIn 10 ((significant.take floatPlaces).rightpad floatPlaces '0')
  else floatPlaces < places

/- An exponent that has reached this bound takes no more digits. -/
def exponentBound : Nat := 0x10000

def exponentOf (digits : List Char) : Nat :=
  digits.foldl (fun n c => if n < exponentBound then pushDigit 10 n c else n) 0

def exponentPart : Reader Int := do
  discard (oneOf ['e', 'E'])
  let negative ← isNegative
  let n := exponentOf (← groupedDigits Char.isDigit)
  return if negative then -(n : Int) else n

def decimalFloat (negative : Bool) : Reader Scalar := do
  let whole ← wholeDigits
  let fraction ← optional (char '.' *> groupedDigits Char.isDigit)
  let exponent ← optional exponentPart
  if fraction.isNone && exponent.isNone then failure
  let behind := fraction.getD []
  let overflow := floatOverflows (whole ++ behind) (exponent.getD 0 - behind.length)
  if overflow && !negative then failure else return .float

def float : Reader Scalar := do
  decimalFloat (← isNegative) <|> (word "inf" *> pure .float) <|> (word "nan" *> pure .float)

def bool : Reader Scalar :=
  (word "true" *> pure (.bool true)) <|> (word "false" *> pure (.bool false))

def fixedDigits (count low high : Nat) : Reader Nat := fun text =>
  let digits := text.take count
  let n := numberIn 10 digits
  if digits.length = count && digits.all Char.isDigit && low ≤ n && n ≤ high then
    some (n, text.drop count)
  else none

def isLeap (year : Nat) : Bool := year % 4 = 0 && (year % 100 != 0 || year % 400 = 0)

def daysIn (year month : Nat) : Nat :=
  if month = 2 then (if isLeap year then 29 else 28)
  else if month = 4 || month = 6 || month = 9 || month = 11 then 30
  else 31

def date : Reader Unit := do
  let year ← fixedDigits 4 0 9999
  char '-'
  let month ← fixedDigits 2 1 12
  char '-'
  discard (fixedDigits 2 1 (daysIn year month))

def hourAndMinute : Reader Unit := do
  discard (fixedDigits 2 0 23)
  char ':'
  discard (fixedDigits 2 0 59)

/- A time of day; a leap second is allowed at any minute. -/
def clock : Reader Unit := do
  hourAndMinute
  char ':'
  discard (fixedDigits 2 0 60)
  discard (optional (char '.' *> takeSome Char.isDigit))

def zone : Reader Unit :=
  discard (oneOf ['Z', 'z']) <|> (oneOf ['+', '-'] *> hourAndMinute)

def moment : Reader Scalar := do
  (do
    date
    discard (optional (oneOf ['T', 't', ' '] *> clock *> optional zone))) <|> clock
  return .moment

def plainScalar : Reader Scalar := moment <|> float <|> integer <|> bool

end MarketFeed.Toml
