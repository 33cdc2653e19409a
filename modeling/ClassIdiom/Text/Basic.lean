/-! # Texts

What is done to texts as sequences of characters: trimming, replacing and filling, and splitting
into lines.

A class of characters is a list of ranges of code points, both ends included. The classes of the
Unicode character database are stored this way. -/

namespace ClassIdiom.Text

/-! ### Classes of characters -/

/-- A set of characters, as ranges of code points with both ends included. -/
structure CharClass where
  ranges : List (Nat × Nat)

namespace CharClass

/-- Membership in a class. -/
def contains (k : CharClass) (c : Char) : Bool :=
  k.ranges.any fun r => r.1 ≤ c.toNat && c.toNat ≤ r.2

theorem contains_iff {k : CharClass} {c : Char} :
    k.contains c = true ↔ ∃ r ∈ k.ranges, r.1 ≤ c.toNat ∧ c.toNat ≤ r.2 := by
  simp [contains]

end CharClass

/-! ### Blanks and trimming

A blank is a character with the property `White_Space`. Trimming drops the blanks at both ends of
a text and nothing else. -/

/-- The characters with the property `White_Space`. -/
def blanks : CharClass where
  ranges := [
    (0x9, 0xd), (0x20, 0x20), (0x85, 0x85), (0xa0, 0xa0), (0x1680, 0x1680), (0x2000, 0x200a),
    (0x2028, 0x2029), (0x202f, 0x202f), (0x205f, 0x205f), (0x3000, 0x3000)]

/-- The character is a blank. -/
def isBlank (c : Char) : Bool := blanks.contains c

/-- The characters after the leading blanks. -/
def trimStart (cs : List Char) : List Char := cs.dropWhile isBlank

/-- The characters before the trailing blanks. -/
def trimEnd (cs : List Char) : List Char := (cs.reverse.dropWhile isBlank).reverse

/-- The characters between the leading and the trailing blanks. -/
def trimChars (cs : List Char) : List Char := trimEnd (trimStart cs)

/-- The text without its leading and trailing blanks. -/
def trim (s : String) : String := String.ofList (trimChars s.toList)

theorem length_dropWhile_le {α : Type} (p : α → Bool) (l : List α) :
    (l.dropWhile p).length ≤ l.length :=
  (List.dropWhile_sublist p).length_le

theorem length_trimChars_le (cs : List Char) : (trimChars cs).length ≤ cs.length := by
  have h1 := length_dropWhile_le isBlank cs
  have h2 := length_dropWhile_le isBlank (trimStart cs).reverse
  simp only [List.length_reverse] at h2
  simp only [trimChars, trimEnd, List.length_reverse]
  unfold trimStart at *
  omega

/-! ### Replacing and filling

Replacing goes through a text from the left: where the pattern stands, the replacement is put and
the search goes on behind the pattern, so occurrences never overlap. A format is a text with holes,
and filling it replaces every hole. -/

/-- Replaces `pattern` in the characters that follow, of which the first `skip` belong to an
occurrence that has been replaced already. -/
def replaceFrom (pattern value : List Char) : Nat → List Char → List Char
  | _, [] => []
  | skip + 1, _ :: cs => replaceFrom pattern value skip cs
  | 0, c :: cs =>
    if pattern.isPrefixOf (c :: cs) then value ++ replaceFrom pattern value (pattern.length - 1) cs
    else c :: replaceFrom pattern value 0 cs

/-- Replaces every occurrence of a pattern, from the left. The pattern is not empty. -/
def replace (pattern value s : String) : String :=
  String.ofList (replaceFrom pattern.toList value.toList 0 s.toList)

/-- Fills the holes of a format, each written as an opening and a closing brace. -/
def fill (format value : String) : String := replace "\x7b\x7d" value format

/-- Fills the holes of a format that have a name, each written as the name in braces. -/
def fillNamed (format name value : String) : String :=
  replace ("\x7b" ++ name ++ "\x7d") value format

/-! ### Lines

A text is split at line feeds. A carriage return right before a line feed belongs to the line end,
any other carriage return to its line. An unfinished last line counts if it is not empty. -/

/-- The lines of a sequence of characters. -/
def linesOf : List Char → List (List Char)
  | [] => []
  | '\n' :: cs => [] :: linesOf cs
  | '\r' :: '\n' :: cs => [] :: linesOf cs
  | c :: cs =>
    match linesOf cs with
    | [] => [[c]]
    | l :: ls => (c :: l) :: ls

/-- The lines of a text. -/
def lines (s : String) : List String := (linesOf s.toList).map String.ofList

end ClassIdiom.Text
