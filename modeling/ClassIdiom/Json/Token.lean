import ClassIdiom.Json.Numeral

/-! # JSON tokens

A text is scanned character by character into tokens. Outside strings, a maximal run of characters
that are neither blanks nor punctuation is a bare word, which must be a literal or a number. Inside
strings, control characters are refused, and two escaped surrogates are joined into one character.

`Token.spell` writes a token back, and `scan` reads a sequence of tokens. -/

namespace ClassIdiom.Json

/-- A token of a JSON text. -/
inductive Token where
  | openArray
  | closeArray
  | openObject
  | closeObject
  | comma
  | colon
  | null
  | bool (b : Bool)
  | num (spelling : String)
  | str (s : String)
deriving DecidableEq, Repr

/-! ### Writing -/

/-- The hexadecimal digit of a number below 16. -/
def hexDigit (n : Nat) : Char :=
  if n < 10 then Char.ofNat ('0'.toNat + n) else Char.ofNat ('a'.toNat + (n - 10))

/-- A character inside a string. -/
def escaped (c : Char) : List Char :=
  if c = '"' then ['\\', '"']
  else if c = '\\' then ['\\', '\\']
  else if c = '\n' then ['\\', 'n']
  else if c = '\r' then ['\\', 'r']
  else if c = '\t' then ['\\', 't']
  else if c = '\x08' then ['\\', 'b']
  else if c = '\x0c' then ['\\', 'f']
  else if c.toNat < 32 then
    ['\\', 'u', '0', '0', hexDigit (c.toNat / 16), hexDigit (c.toNat % 16)]
  else [c]

/-- The spelling of a token. -/
def Token.spell : Token → List Char
  | openArray => ['[']
  | closeArray => [']']
  | openObject => ['\x7b']
  | closeObject => ['\x7d']
  | comma => [',']
  | colon => [':']
  | null => ['n', 'u', 'l', 'l']
  | bool true => ['t', 'r', 'u', 'e']
  | bool false => ['f', 'a', 'l', 's', 'e']
  | num spelling => spelling.toList
  | str s => '"' :: s.toList.flatMap escaped ++ ['"']

/-! ### Scanning -/

/-- Where the scanner stands. Characters read so far are kept latest first. -/
inductive Mode where
  /-- Outside strings and bare words. -/
  | between
  /-- Inside a bare word. -/
  | word (read : List Char)
  /-- Inside a string. -/
  | text (read : List Char)
  /-- After a backslash inside a string. -/
  | escape (read : List Char)
  /-- Inside the four hexadecimal digits of a code unit, `left` of which are to come. If a high
  surrogate was read before, this is the code unit that completes it. -/
  | unit (read : List Char) (high : Option Nat) (left value : Nat)
  /-- After a high surrogate, before the backslash of the low one. -/
  | pair (read : List Char) (high : Nat)
  /-- After a high surrogate and a backslash. -/
  | pairMark (read : List Char) (high : Nat)

/-- The scanner: its mode and the tokens read so far, latest first. -/
structure Scan where
  mode : Mode
  tokens : List Token

namespace Scan

/-- The scanner before the first character. -/
def start : Scan where
  mode := .between
  tokens := []

/-- A blank between tokens. -/
def isSpace (c : Char) : Bool := c = ' ' || c = '\t' || c = '\n' || c = '\r'

/-- The token that a punctuation character stands for. -/
def punctuation? : Char → Option Token
  | '[' => some .openArray
  | ']' => some .closeArray
  | '\x7b' => some .openObject
  | '\x7d' => some .closeObject
  | ',' => some .comma
  | ':' => some .colon
  | _ => none

/-- The token that a bare word stands for. -/
def wordToken? (word : List Char) : Option Token :=
  if word = ['n', 'u', 'l', 'l'] then some .null
  else if word = ['t', 'r', 'u', 'e'] then some (.bool true)
  else if word = ['f', 'a', 'l', 's', 'e'] then some (.bool false)
  else if isNumber word then some (.num (String.ofList word))
  else none

/-- The character that a backslash and a letter stand for. -/
def escape? : Char → Option Char
  | '"' => some '"'
  | '\\' => some '\\'
  | '/' => some '/'
  | 'b' => some '\x08'
  | 'f' => some '\x0c'
  | 'n' => some '\n'
  | 'r' => some '\r'
  | 't' => some '\t'
  | _ => none

/-- The value of a hexadecimal digit in either case. -/
def hexValue? (c : Char) : Option Nat :=
  let n := c.toNat
  if '0'.toNat ≤ n && n ≤ '9'.toNat then some (n - '0'.toNat)
  else if 'a'.toNat ≤ n && n ≤ 'f'.toNat then some (n - 'a'.toNat + 10)
  else if 'A'.toNat ≤ n && n ≤ 'F'.toNat then some (n - 'A'.toNat + 10)
  else none

/-- The code unit is the first half of a surrogate pair. -/
def isHigh (unit : Nat) : Bool := 0xD800 ≤ unit && unit < 0xDC00

/-- The code unit is the second half of a surrogate pair. -/
def isLow (unit : Nat) : Bool := 0xDC00 ≤ unit && unit < 0xE000

/-- What follows a complete code unit: the string goes on, or the other half of a pair is due. -/
def unitRead (read : List Char) (high : Option Nat) (unit : Nat) : Option Mode :=
  match high with
  | none =>
    if isHigh unit then some (.pair read unit)
    else if isLow unit then none
    else some (.text (Char.ofNat unit :: read))
  | some h =>
    if isLow unit then
      some (.text (Char.ofNat (0x10000 + (h - 0xD800) * 0x400 + (unit - 0xDC00)) :: read))
    else none

/-- One character between tokens. -/
def stepBetween (tokens : List Token) (c : Char) : Scan :=
  if isSpace c then ⟨.between, tokens⟩
  else match punctuation? c with
    | some t => ⟨.between, t :: tokens⟩
    | none => if c = '"' then ⟨.text [], tokens⟩ else ⟨.word [c], tokens⟩

/-- The character ends a bare word. -/
def endsWord (c : Char) : Bool := isSpace c || (punctuation? c).isSome || c = '"'

/-- One character. -/
def step (s : Scan) (c : Char) : Option Scan :=
  match s.mode with
  | .between => some (stepBetween s.tokens c)
  | .word read =>
    if endsWord c then (wordToken? read.reverse).map fun t => stepBetween (t :: s.tokens) c
    else some ⟨.word (c :: read), s.tokens⟩
  | .text read =>
    if c = '"' then some ⟨.between, .str (String.ofList read.reverse) :: s.tokens⟩
    else if c = '\\' then some ⟨.escape read, s.tokens⟩
    else if c.toNat < 32 then none
    else some ⟨.text (c :: read), s.tokens⟩
  | .escape read =>
    if c = 'u' then some ⟨.unit read none 4 0, s.tokens⟩
    else (escape? c).map fun e => ⟨.text (e :: read), s.tokens⟩
  | .unit read high left value =>
    match hexValue? c with
    | none => none
    | some d =>
      let value := 16 * value + d
      if left = 1 then (unitRead read high value).map fun m => ⟨m, s.tokens⟩
      else some ⟨.unit read high (left - 1) value, s.tokens⟩
  | .pair read high => if c = '\\' then some ⟨.pairMark read high, s.tokens⟩ else none
  | .pairMark read high => if c = 'u' then some ⟨.unit read (some high) 4 0, s.tokens⟩ else none

/-- The tokens at the end of the text, where a bare word may end but not a string. -/
def finish (s : Scan) : Option (List Token) :=
  match s.mode with
  | .between => some s.tokens.reverse
  | .word read => (wordToken? read.reverse).map fun t => (t :: s.tokens).reverse
  | _ => none

end Scan

/-- The tokens of a text. -/
def scan (text : List Char) : Option (List Token) :=
  (text.foldlM Scan.step Scan.start).bind Scan.finish

end ClassIdiom.Json
