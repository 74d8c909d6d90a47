import MarketFeed.Text.Reader

/-!
JSON tokens. Numbers without sign, fraction and exponent keep their value, of others only their form
is checked. A text with an escaped half of a surrogate pair is well formed and stands for no text.
-/
namespace MarketFeed.Json

open MarketFeed.Text

inductive Scalar where
  | null
  | bool (b : Bool)
  | natural (n : Nat)
  | number
  | text (t : Option String)
  deriving DecidableEq, Repr

inductive Token where
  | scalar (s : Scalar)
  | openArray
  | closeArray
  | openObject
  | closeObject
  | comma
  | colon
  deriving DecidableEq, Repr

inductive Piece where
  | char (c : Char)
  | unit (n : Nat)
  deriving DecidableEq, Repr

def isHigh (n : Nat) : Bool := 0xd800 ≤ n && n < 0xdc00

def isLow (n : Nat) : Bool := 0xdc00 ≤ n && n < 0xe000

/- Joins high and low units that stand side by side; a unit left alone makes the text no text. -/
def joinPieces : List Piece → Option (List Char)
  | [] => some []
  | .char c :: rest => (joinPieces rest).map (c :: ·)
  | .unit high :: .unit low :: rest =>
    if isHigh high && isLow low then
      (joinPieces rest).map (Char.ofNat (0x10000 + (high - 0xd800) * 0x400 + (low - 0xdc00)) :: ·)
    else if isHigh high || isLow high then none
    else (joinPieces (.unit low :: rest)).map (Char.ofNat high :: ·)
  | .unit n :: rest =>
    if isHigh n || isLow n then none else (joinPieces rest).map (Char.ofNat n :: ·)

def isBlank (c : Char) : Bool := c == ' ' || c == '\t' || c == '\n' || c == '\r'

def isPlain (c : Char) : Bool := c != '"' && c != '\\' && 0x20 ≤ c.toNat

def escapedChar? : Char → Option Char
  | '"' => some '"'
  | '\\' => some '\\'
  | '/' => some '/'
  | 'b' => some '\x08'
  | 'f' => some '\x0c'
  | 'n' => some '\n'
  | 'r' => some '\r'
  | 't' => some '\t'
  | _ => none

open Reader

def escape : Reader Piece := do
  char '\\'
  match ← satisfy fun _ => true with
  | 'u' => Piece.unit <$> hexDigits 4
  | c => match escapedChar? c with
    | some d => return .char d
    | none => failure

def quotedText : Reader (Option String) := do
  char '"'
  let pieces ← many ((·.map .char) <$> takeSome isPlain <|> List.singleton <$> escape)
  char '"'
  return (joinPieces pieces.flatten).map String.ofList

def digits : Reader (List Char) := takeSome Char.isDigit

def wholeDigits : Reader (List Char) := do
  match ← digits with
  | '0' :: _ :: _ => failure
  | taken => return taken

/- Whole numbers from here on are kept as numbers only, like fractions. -/
def naturalBound : Nat := 0x10000000000000000

def number : Reader Scalar := do
  let sign ← optional (char '-')
  let whole ← wholeDigits
  let fraction ← optional (char '.' *> digits)
  let exponent ← optional (oneOf ['e', 'E'] *> optional (oneOf ['+', '-']) *> digits)
  if sign.isNone && fraction.isNone && exponent.isNone then
    return (numberBelow? 10 naturalBound whole).elim .number .natural
  else return .number

def literal : Reader Scalar :=
  .text <$> quotedText <|> number <|>
  (word "null" *> pure .null) <|> (word "true" *> pure (.bool true)) <|>
  (word "false" *> pure (.bool false))

def mark? : Char → Option Token
  | '[' => some .openArray
  | ']' => some .closeArray
  | '\x7b' => some .openObject
  | '\x7d' => some .closeObject
  | ',' => some .comma
  | ':' => some .colon
  | _ => none

def mark : Reader Token := do
  match mark? (← satisfy fun _ => true) with
  | some token => return token
  | none => failure

def token : Reader Token := mark <|> .scalar <$> literal

def blanks : Reader Unit := discard (takeWhile isBlank)

def tokens? (text : String) : Option (List Token) := readAll (blanks *> many (token <* blanks)) text

end MarketFeed.Json
