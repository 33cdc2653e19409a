/-! # Numerals

The grammar of a JSON number: a minus sign if negative, a whole part without leading zeros, and
optionally a fraction and an exponent.

A numeral is accepted in a text only if it is in the range of binary64 numbers. It is read as a
significand, which is what its leading digits come to as long as that fits in 64 bits, times a power
of ten. Both are rounded to binary64, and the numeral is out of range if the product of the two
rounds to infinity. -/

namespace ClassIdiom.Json

/-! ### Whole numbers in binary64

A binary64 number has 53 significant bits. A whole number with more bits is rounded to the nearest
number that has 53 of them, and from half way to the one whose last bit is even. Numbers from
`overflowBound` on round to infinity. -/

namespace Binary64

/-- The quotient, rounded to the nearest whole number; half way it goes to the even one. -/
def divNearest (n d : Nat) : Nat :=
  if 2 * (n % d) < d ∨ 2 * (n % d) = d ∧ n / d % 2 = 0 then n / d else n / d + 1

/-- How many bits a number has beyond the 53 significant ones. -/
def excess (n : Nat) : Nat := n.log2 - 52

/-- The nearest number with 53 significant bits. -/
def round (n : Nat) : Nat := divNearest n (Nat.pow 2 (excess n)) * Nat.pow 2 (excess n)

/-- The least number that rounds to infinity: half a unit past the largest binary64 number. -/
def overflowBound : Nat := Nat.pow 2 1024 - Nat.pow 2 970

end Binary64

/-! ### Numerals -/

/-- The parts of a number as written. -/
structure Numeral where
  negative : Bool
  whole : List Char
  fraction : Option (List Char)
  exponent : Option Int

namespace Numeral

/-- The value of digits, given what they come to without the last one, and the last one. -/
def pushDigit (value : Nat) (c : Char) : Nat := 10 * value + (c.toNat - '0'.toNat)

/-- The value of a sequence of decimal digits. -/
def natOfDigits (digits : List Char) : Nat := digits.foldl pushDigit 0

/-- The digits of a fraction, if one starts here, and what follows. -/
def readFraction : List Char → Option (Option (List Char) × List Char)
  | '.' :: cs =>
    let digits := cs.takeWhile Char.isDigit
    if digits = [] then none else some (some digits, cs.dropWhile Char.isDigit)
  | cs => some (none, cs)

/-- The value of an exponent whose mark has been read, with its sign, and what follows. -/
def readPower (negative : Bool) (cs : List Char) : Option (Option Int × List Char) :=
  let digits := cs.takeWhile Char.isDigit
  let power : Int := natOfDigits digits
  if digits = [] then none
  else some (some (if negative then -power else power), cs.dropWhile Char.isDigit)

/-- The exponent, if one starts here, and what follows. -/
def readExponent : List Char → Option (Option Int × List Char)
  | c :: cs =>
    if c = 'e' ∨ c = 'E' then
      match cs with
      | '+' :: ds => readPower false ds
      | '-' :: ds => readPower true ds
      | ds => readPower false ds
    else some (none, c :: cs)
  | [] => some (none, [])

/-- The whole part: a single zero, or digits of which the first is not zero. -/
def isWhole (digits : List Char) : Bool :=
  match digits with
  | [] => false
  | ['0'] => true
  | c :: _ => c != '0'

/-- Reads a numeral without its sign. -/
def readUnsigned (negative : Bool) (cs : List Char) : Option Numeral := do
  let whole := cs.takeWhile Char.isDigit
  let (fraction, cs) ← readFraction (cs.dropWhile Char.isDigit)
  let (exponent, cs) ← readExponent cs
  if isWhole whole && cs.isEmpty then some { negative, whole, fraction, exponent } else none

/-- Reads a numeral that takes up all the characters. -/
def read? : List Char → Option Numeral
  | '-' :: cs => readUnsigned true cs
  | cs => readUnsigned false cs

/-- The integer a numeral spells, which has no fraction, no exponent and is not a negative zero. -/
def toInt? (n : Numeral) : Option Int :=
  let value : Int := natOfDigits n.whole
  match n.fraction, n.exponent with
  | none, none =>
    if n.negative then (if value = 0 then none else some (-value)) else some value
  | _, _ => none

/-- Takes digits as long as the value, which starts from the given one, fits in 64 bits. The result
is the value and the digits that are left. -/
def takeWord (value : Nat) : List Char → Nat × List Char
  | [] => (value, [])
  | c :: cs =>
    if pushDigit value c < Nat.pow 2 64 then takeWord (pushDigit value c) cs else (value, c :: cs)

/-- The digits of the whole part and of the fraction. -/
def digits (n : Numeral) : List Char := n.whole ++ n.fraction.getD []

/-- What the leading digits come to, as many as fit in 64 bits. -/
def significand (n : Numeral) : Nat := (takeWord 0 n.digits).1

/-- The power of ten that goes with the significand: each digit that was left out raises it, and
each digit of the fraction lowers it. -/
def scale (n : Numeral) : Int :=
  n.exponent.getD 0 + (takeWord 0 n.digits).2.length - (n.fraction.getD []).length

/-- The largest power of ten in the range of binary64 numbers. -/
def maxScale : Nat := 308

/-- The numeral is in the range of binary64 numbers. Zero is, with any exponent, and so is what a
power of ten divides. -/
def inRange (n : Numeral) : Bool :=
  n.significand == 0 || n.scale < 0 || n.scale ≤ maxScale &&
    Binary64.round n.significand * Binary64.round (Nat.pow 10 n.scale.toNat) <
      Binary64.overflowBound

end Numeral

/-- The integer that the spelling of a number denotes. -/
def intOfSpelling? (spelling : String) : Option Int :=
  (Numeral.read? spelling.toList).bind Numeral.toInt?

/-- The characters spell a number that a text may hold. -/
def isNumber (cs : List Char) : Bool := (Numeral.read? cs).any Numeral.inRange

end ClassIdiom.Json
