import ClassIdiom.Json.Basic
import ClassIdiom.Json.Token

/-! # Reading JSON texts

The parser goes through the tokens once and keeps a stack of the arrays and objects that are open.
A text is refused if it nests deeper than `maxDepth`. -/

namespace ClassIdiom.Json

/-- The largest number of arrays and objects that may be open at once. -/
def maxDepth : Nat := 127

/-- An open array or object with what it holds so far, latest first. An object also holds the key
whose value is being read. -/
inductive Frame where
  | array (done : List Json)
  | object (done : List (String × Json)) (key : String)

/-- Where the parser stands, over the stack of open arrays and objects. -/
inductive Position where
  /-- A value must follow. -/
  | value (stack : List Frame)
  /-- Right after an opening bracket: a value or the closing bracket. -/
  | arrayStart (stack : List Frame)
  /-- Right after an opening brace: a key or the closing brace. -/
  | objectStart (stack : List Frame)
  /-- After a comma in an object: a key must follow. -/
  | key (stack : List Frame) (done : List (String × Json))
  /-- After a key: a colon must follow. -/
  | colon (stack : List Frame) (done : List (String × Json)) (key : String)
  /-- After a complete value. -/
  | complete (stack : List Frame) (v : Json)

namespace Position

/-- A token where a value must follow. -/
def stepValue (stack : List Frame) : Token → Option Position
  | .null => some (.complete stack .null)
  | .bool b => some (.complete stack (.bool b))
  | .num spelling => some (.complete stack (.num spelling))
  | .str s => some (.complete stack (.str s))
  | .openArray => if stack.length < maxDepth then some (.arrayStart stack) else none
  | .openObject => if stack.length < maxDepth then some (.objectStart stack) else none
  | _ => none

/-- A token after a complete value. -/
def stepComplete : List Frame → Json → Token → Option Position
  | .array done :: stack, v, .comma => some (.value (.array (v :: done) :: stack))
  | .array done :: stack, v, .closeArray => some (.complete stack (.arr (v :: done).reverse))
  | .object done k :: stack, v, .comma => some (.key stack ((k, v) :: done))
  | .object done k :: stack, v, .closeObject =>
    some (.complete stack (.obj ((k, v) :: done).reverse))
  | _, _, _ => none

/-- One token. -/
def step : Position → Token → Option Position
  | .value stack, t => stepValue stack t
  | .arrayStart stack, .closeArray => some (.complete stack (.arr []))
  | .arrayStart stack, t => stepValue (.array [] :: stack) t
  | .objectStart stack, .closeObject => some (.complete stack (.obj []))
  | .objectStart stack, .str k => some (.colon stack [] k)
  | .objectStart _, _ => none
  | .key stack done, .str k => some (.colon stack done k)
  | .key _ _, _ => none
  | .colon stack done k, .colon => some (.value (.object done k :: stack))
  | .colon _ _ _, _ => none
  | .complete stack v, t => stepComplete stack v t

/-- The value at the end of the text. -/
def result? : Position → Option Json
  | .complete [] v => some v
  | _ => none

end Position

/-- The value of a sequence of tokens. -/
def ofTokens? (tokens : List Token) : Option Json :=
  (tokens.foldlM Position.step (.value [])).bind Position.result?

/-- Reads a text, or nothing if it is not the text of one JSON value. -/
def parse? (text : String) : Option Json := (scan text.toList).bind ofTokens?

end ClassIdiom.Json
