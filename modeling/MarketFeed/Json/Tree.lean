import MarketFeed.Json.Token

/-!
JSON values, built token by token over a stack of the containers that are still open, so that
nesting has no limit. Members stay in order and repeated keys are kept.
-/
namespace MarketFeed

inductive Json where
  | scalar (s : Json.Scalar)
  | array (items : List Json)
  | object (members : List (Option String × Json))
  deriving Repr

namespace Json

/- An open container with what it holds so far, last first. -/
inductive Level where
  | array (items : List Json)
  | object (members : List (Option String × Json))
  | member (members : List (Option String × Json)) (key : Option String)
  deriving Repr

inductive Expected where
  | value
  /- A value, or the end of the array just opened. -/
  | firstItem
  /- A key, or the end of the object just opened. -/
  | firstKey
  | key
  | colon
  /- A comma, or the end of the innermost container. -/
  | next
  deriving DecidableEq, Repr

inductive State where
  | reading (levels : List Level) (expected : Expected)
  | done (value : Json)
  deriving Repr

def place (value : Json) : List Level → Option State
  | [] => some (.done value)
  | .array items :: outer => some (.reading (.array (value :: items) :: outer) .next)
  | .member members key :: outer =>
    some (.reading (.object ((key, value) :: members) :: outer) .next)
  | .object _ :: _ => none

def close : List Level → Option State
  | .array items :: outer => place (.array items.reverse) outer
  | .object members :: outer => place (.object members.reverse) outer
  | _ => none

def begin (levels : List Level) : Token → Option State
  | .scalar s => place (.scalar s) levels
  | .openArray => some (.reading (.array [] :: levels) .firstItem)
  | .openObject => some (.reading (.object [] :: levels) .firstKey)
  | _ => none

def takeKey : List Level → Token → Option State
  | .object members :: outer, .scalar (.text key) =>
    some (.reading (.member members key :: outer) .colon)
  | _, _ => none

def step : State → Token → Option State
  | .done _, _ => none
  | .reading levels .value, t => begin levels t
  | .reading levels .firstItem, .closeArray => close levels
  | .reading levels .firstItem, t => begin levels t
  | .reading levels .firstKey, .closeObject => close levels
  | .reading levels .firstKey, t => takeKey levels t
  | .reading levels .key, t => takeKey levels t
  | .reading levels .colon, .colon => some (.reading levels .value)
  | .reading (.array items :: outer) .next, .comma =>
    some (.reading (.array items :: outer) .value)
  | .reading (.array items :: outer) .next, .closeArray => close (.array items :: outer)
  | .reading (.object members :: outer) .next, .comma =>
    some (.reading (.object members :: outer) .key)
  | .reading (.object members :: outer) .next, .closeObject => close (.object members :: outer)
  | _, _ => none

def ofTokens? (tokens : List Token) : Option Json :=
  match tokens.foldlM step (.reading [] .value) with
  | some (.done value) => some value
  | _ => none

def parse? (text : String) : Option Json := (tokens? text).bind ofTokens?

end Json
end MarketFeed
