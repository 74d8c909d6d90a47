import MarketFeed.Text.Reader

/-!
Quoted text of TOML 1.0, on one line or over many. Line breaks inside a text become line feeds, and
a backslash before a line break joins the lines and the blanks between them. Control characters
other than the tab are refused.
-/
namespace MarketFeed.Toml

open MarketFeed.Text MarketFeed.Text.Reader

def isBlank (c : Char) : Bool := c == ' ' || c == '\t'

def isPrintable (c : Char) : Bool := c == '\t' || (0x20 ≤ c.toNat && c != '\x7f')

def blanks : Reader Unit := discard (takeWhile isBlank)

def newline : Reader Unit := char '\n' <|> word "\r\n"

def escapedChar? : Char → Option Char
  | 'b' => some '\x08'
  | 't' => some '\t'
  | 'n' => some '\n'
  | 'f' => some '\x0c'
  | 'r' => some '\r'
  | '"' => some '"'
  | '\\' => some '\\'
  | _ => none

def charOf? (n : Nat) : Option Char := if h : n.isValidChar then some (Char.ofNatAux n h) else none

def lift {α : Type} : Option α → Reader α
  | some x => return x
  | none => failure

def escape : Reader (List Char) := do
  char '\\'
  match ← satisfy fun _ => true with
  | 'u' => return [← lift (charOf? (← hexDigits 4))]
  | 'U' => return [← lift (charOf? (← hexDigits 8))]
  | c => return [← lift (escapedChar? c)]

def basicRun : Reader (List Char) := takeSome fun c => isPrintable c && c != '"' && c != '\\'

def basicText : Reader String := do
  char '"'
  let pieces ← many (basicRun <|> escape)
  char '"'
  return String.ofList pieces.flatten

def literalText : Reader String := do
  char '\''
  let text ← takeWhile fun c => isPrintable c && c != '\''
  char '\''
  return String.ofList text

def lineBreak : Reader (List Char) := newline *> pure ['\n']

def lineJoin : Reader (List Char) := do
  char '\\'
  blanks
  newline
  discard (many (discard (takeSome isBlank) <|> newline))
  return []

def fewQuotes (quote : Char) : Reader (List Char) := do
  let quotes ← takeSome (· == quote)
  if quotes.length < 3 then return quotes else failure

/- The closing quotes; up to two more before them belong to the text. -/
def closingQuotes (quote : Char) : Reader (List Char) := do
  let quotes ← takeWhile (· == quote)
  if 3 ≤ quotes.length && quotes.length ≤ 5 then return quotes.drop 3 else failure

def blockText (quote : Char) (piece : Reader (List Char)) : Reader String := do
  exactly [quote, quote, quote]
  discard (optional newline)
  let pieces ← many (piece <|> lineBreak <|> fewQuotes quote)
  let last ← closingQuotes quote
  return String.ofList (pieces.flatten ++ last)

def basicBlock : Reader String := blockText '"' (basicRun <|> lineJoin <|> escape)

def literalBlock : Reader String := blockText '\'' (takeSome fun c => isPrintable c && c != '\'')

def quotedText : Reader String := basicBlock <|> basicText <|> literalBlock <|> literalText

end MarketFeed.Toml
