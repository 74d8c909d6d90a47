/-!
Text that is read. White space is trimmed by the property White_Space, since core's own test knows
ASCII only. A number is typed in decimal digits: one plus sign may lead, zeros may lead, nothing else
may stand beside the digits, and the faults are found from the left, so the digit that makes a number
too large hides whatever is wrong behind it. A reader takes a piece off the front or fails and takes
nothing; repetition is bounded by the length of the text it starts on, which is enough for readers
that take at least one character.
-/
namespace MarketFeed.Text

def isBlank (c : Char) : Bool :=
  let n := c.toNat
  (0x09 ≤ n && n ≤ 0x0d) || n == 0x20 || n == 0x85 || n == 0xa0 || n == 0x1680 ||
  (0x2000 ≤ n && n ≤ 0x200a) || n == 0x2028 || n == 0x2029 || n == 0x202f || n == 0x205f ||
  n == 0x3000

def trimChars (text : List Char) : List Char :=
  ((text.dropWhile isBlank).reverse.dropWhile isBlank).reverse

def trim (text : String) : String := String.ofList (trimChars text.toList)

inductive NumberFault where
  | empty
  | invalidDigit
  | tooLarge
  deriving DecidableEq, Repr

def NumberFault.message : NumberFault → String
  | .empty => "cannot parse integer from empty string"
  | .invalidDigit => "invalid digit found in string"
  | .tooLarge => "number too large to fit in target type"

def readDigits (limit : Nat) : (n : Nat) → List Char → Except NumberFault Nat
  | n, [] => .ok n
  | n, c :: rest =>
    if !c.isDigit then .error .invalidDigit
    else
      let m := 10 * n + (c.toNat - 48)
      if limit < m then .error .tooLarge else readDigits limit m rest

def readNumber (limit : Nat) (text : List Char) : Except NumberFault Nat :=
  match text with
  | [] => .error .empty
  | ['+'] => .error .invalidDigit
  | '+' :: digits => readDigits limit 0 digits
  | digits => readDigits limit 0 digits

def number? (limit : Nat) (text : String) : Option Nat := (readNumber limit text.toList).toOption

abbrev Reader := StateT (List Char) Option

namespace Reader

variable {α β : Type}

def satisfy (test : Char → Bool) : Reader Char
  | c :: rest => if test c then some (c, rest) else none
  | [] => none

def char (c : Char) : Reader Unit := discard (satisfy (· == c))

def takeWhile (test : Char → Bool) : Reader (List Char) := fun text => some (text.span test)

def takeSome (test : Char → Bool) : Reader (List Char) := do
  let taken ← takeWhile test
  if taken.isEmpty then failure else return taken

def exactly : List Char → Reader Unit
  | [] => return ()
  | c :: rest => do char c; exactly rest

def word (w : String) : Reader Unit := exactly w.toList

def oneOf (chars : List Char) : Reader Char := satisfy chars.contains

def atEnd : Reader Unit
  | [] => some ((), [])
  | _ :: _ => none

/- As many pieces as can be read, but no more than `bound` has characters, behind those already
`taken`, which are kept last first. -/
def upTo (r : Reader α) : (bound : List Char) → (taken : List α) → Reader (List α)
  | [], taken => return taken.reverse
  | _ :: bound, taken => fun text =>
    match r text with
    | some (x, rest) => r.upTo bound (x :: taken) rest
    | none => some (taken.reverse, text)

def many (r : Reader α) : Reader (List α) := fun text => r.upTo text [] text

def separated (r : Reader α) (separator : Reader β) : Reader (List α) := do
  let first ← r
  let others ← many (separator *> r)
  return first :: others

def readAll (r : Reader α) (text : String) : Option α := (r <* atEnd).run' text.toList

end Reader

def hexValue? (c : Char) : Option Nat :=
  let n := c.toNat
  if 48 ≤ n && n ≤ 57 then some (n - 48)
  else if 97 ≤ n && n ≤ 102 then some (n - 87)
  else if 65 ≤ n && n ≤ 70 then some (n - 55)
  else none

def isHexDigit (c : Char) : Bool := (hexValue? c).isSome

def pushDigit (base n : Nat) (c : Char) : Nat := base * n + (hexValue? c).getD 0

def numberIn (base : Nat) (digits : List Char) : Nat := digits.foldl (pushDigit base) 0

/- The number with these digits if it is below `bound`. Once the bound is reached, no more digits
are looked at. -/
def numberBelow? (base bound : Nat) (digits : List Char) : Option Nat :=
  digits.foldlM (fun n c =>
    let m := pushDigit base n c
    if m < bound then some m else none) 0

namespace Reader

def hexDigits (count : Nat) : Reader Nat := fun text =>
  let digits := text.take count
  if digits.length = count && digits.all isHexDigit then
    some (numberIn 16 digits, text.drop count)
  else none

end Reader

end MarketFeed.Text
