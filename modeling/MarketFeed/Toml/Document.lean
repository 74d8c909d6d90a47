import MarketFeed.Toml.Quoted
import MarketFeed.Toml.Scalar

/-!
TOML documents as they are written: key paths and values line by line, under the headers they stand
under. Whether the keys fit together is not asked here. Values nest less than eighty levels deep and
key paths have less than eighty parts.
-/
namespace MarketFeed.Toml

open MarketFeed.Text MarketFeed.Text.Reader

inductive Value where
  | scalar (s : Scalar)
  | array (items : List Value)
  | inline (pairs : List (List String × Value))
  deriving Repr

abbrev Pair := List String × Value

inductive HeaderKind where
  | table
  | row
  deriving DecidableEq, Repr

structure Section where
  kind : HeaderKind
  path : List String
  pairs : List Pair
  deriving Repr

structure Document where
  pairs : List Pair
  sections : List Section
  deriving Repr

def comment : Reader Unit := char '#' *> discard (takeWhile isPrintable)

def trivia : Reader Unit :=
  discard (many (discard (takeSome isBlank) <|> newline <|> (comment *> (newline <|> atEnd))))

def lineEnd : Reader Unit := blanks *> optional comment *> (newline <|> atEnd)

def isBareKey (c : Char) : Bool := c.isAlphanum || c == '-' || c == '_'

def key : Reader String :=
  basicText <|> literalText <|> String.ofList <$> takeSome isBareKey

/- The levels of nesting and the parts of a key path that are allowed. -/
def maxDepth : Nat := 79

def keyPath : Reader (List String) := do
  let path ← separated (blanks *> key <* blanks) (char '.')
  if path.length ≤ maxDepth then return path else failure

def pair (value : Reader Value) : Reader Pair := do
  let path ← keyPath
  char '='
  blanks
  return (path, ← value)

def array (value : Reader Value) : Reader Value := do
  char '['
  let items ← optional (separated (trivia *> value <* trivia) (char ',') <* optional (char ','))
  trivia
  char ']'
  return .array (items.getD [])

def inlineTable (value : Reader Value) : Reader Value := do
  char '\x7b'
  let pairs ← optional (separated (pair value <* blanks) (char ','))
  blanks
  char '\x7d'
  return .inline (pairs.getD [])

def scalarValue : Reader Value := .scalar <$> (.text <$> quotedText <|> plainScalar)

def value : (depth : Nat) → Reader Value
  | 0 => scalarValue
  | depth + 1 => array (value depth) <|> inlineTable (value depth) <|> scalarValue

def pairLine : Reader Pair := pair (value maxDepth) <* lineEnd <* trivia

def header : Reader (HeaderKind × List String) :=
  (word "[[" *> (Prod.mk .row) <$> keyPath <* word "]]") <|>
  (char '[' *> (Prod.mk .table) <$> keyPath <* char ']')

def headed : Reader Section := do
  let (kind, path) ← header
  lineEnd
  trivia
  return ⟨kind, path, ← many pairLine⟩

def document : Reader Document := do
  discard (optional (char '\ufeff'))
  trivia
  return ⟨← many pairLine, ← many headed⟩

end MarketFeed.Toml
