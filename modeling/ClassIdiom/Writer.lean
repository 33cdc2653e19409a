/-! # Indented text

A writer collects text line by line. The indentation of a line is written together with the first
text of the line that is not empty, so that an empty line stays empty. -/

namespace ClassIdiom

/-- A text under construction. -/
structure Writer where
  /-- All that has been written. -/
  text : String
  /-- The indentation of one level. -/
  unit : String
  /-- The current level. -/
  level : Nat
  /-- Nothing has been written on the current line. -/
  atLineStart : Bool
deriving DecidableEq, Repr

namespace Writer

/-- A writer with nothing written. -/
def new (unit : String) : Writer where
  text := ""
  unit := unit
  level := 0
  atLineStart := true

/-- The indentation of a line at the given level. -/
def indentation (unit : String) (level : Nat) : String := String.join (List.replicate level unit)

/-- Writes a text on the current line. -/
def write (w : Writer) (s : String) : Writer :=
  if s.isEmpty then w
  else if w.atLineStart then
    { w with text := w.text ++ indentation w.unit w.level ++ s, atLineStart := false }
  else { w with text := w.text ++ s }

/-- Ends the current line. -/
def newline (w : Writer) : Writer := { w with text := w.text ++ "\n", atLineStart := true }

/-- Writes a text and ends the line. -/
def line (w : Writer) (s : String) : Writer := (w.write s).newline

/-- Goes one level in. -/
def indent (w : Writer) : Writer := { w with level := w.level + 1 }

/-- Goes one level out, if there is one. -/
def dedent (w : Writer) : Writer := { w with level := w.level - 1 }

end Writer

/-- A line of a layout: its text, and how many levels it lies within its surroundings. -/
structure Line where
  depth : Nat
  text : String
deriving DecidableEq, Repr

/-- The lines, one level further in. -/
def Line.nest (lines : List Line) : List Line := lines.map fun l => { l with depth := l.depth + 1 }

namespace Writer

/-- Writes a line of a layout. -/
def putLine (w : Writer) (l : Line) : Writer :=
  { ({ w with level := w.level + l.depth }).line l.text with level := w.level }

/-- Writes the lines of a layout. -/
def putLines (w : Writer) (lines : List Line) : Writer := lines.foldl putLine w

@[simp]
theorem level_putLine (w : Writer) (l : Line) : (w.putLine l).level = w.level := rfl

@[simp]
theorem atLineStart_putLine (w : Writer) (l : Line) : (w.putLine l).atLineStart = true := rfl

@[simp]
theorem level_putLines (w : Writer) (lines : List Line) : (w.putLines lines).level = w.level := by
  unfold putLines
  induction lines generalizing w with
  | nil => rfl
  | cons l lines ih => rw [List.foldl_cons, ih, level_putLine]

theorem putLines_append (w : Writer) (a b : List Line) :
    w.putLines (a ++ b) = (w.putLines a).putLines b := by
  simp [putLines]

end Writer

end ClassIdiom
