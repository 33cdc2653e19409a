import ClassIdiom.Failure
import ClassIdiom.Writer

/-! # Writing that may fail

What is written goes to a writer and stays there, also if the writing fails later. -/

namespace ClassIdiom

/-- Writing that may fail. What was written before a failure stays. -/
abbrev Emit := ExceptT Failure (StateM Writer)

namespace Emit

/-- Changes the writer. -/
def change (f : Writer → Writer) : Emit Unit := ExceptT.lift (modify f)

/-- Gives what was found without writing, or fails with it. -/
def found {α : Type} (result : Except Failure α) : Emit α := ExceptT.mk (pure result)

/-- Writes a text on the current line. -/
def write (s : String) : Emit Unit := change (·.write s)

/-- Ends the current line. -/
def newline : Emit Unit := change Writer.newline

/-- Writes a text and ends the line. -/
def line (s : String) : Emit Unit := change (·.line s)

/-- Writes texts on lines of their own. -/
def lines (texts : List String) : Emit Unit := texts.forM line

/-- Writes texts on lines of their own, one level in. -/
def innerLines (texts : List String) : Emit Unit := do
  change Writer.indent
  lines texts
  change Writer.dedent

/-- Runs on a writer and gives the outcome with the writer at the end. -/
def exec (x : Emit Unit) (w : Writer) : Except Failure Unit × Writer := x.run.run w

/-- Runs on a fresh writer and gives the text. -/
def text (x : Emit Unit) (unit : String) : Except Failure String :=
  let (result, w) := x.exec (Writer.new unit)
  result.map fun _ => w.text

@[simp]
theorem exec_pure (w : Writer) : (pure () : Emit Unit).exec w = (.ok (), w) := rfl

@[simp]
theorem exec_change (f : Writer → Writer) (w : Writer) : (change f).exec w = (.ok (), f w) := rfl

theorem exec_bind (x : Emit Unit) (f : Unit → Emit Unit) (w : Writer) :
    (x >>= f).exec w =
      match x.exec w with
      | (.ok (), w') => (f ()).exec w'
      | (.error e, w') => (.error e, w') := by
  unfold exec ExceptT.run StateT.run
  simp only [bind, ExceptT.bind, ExceptT.mk, ExceptT.bindCont, StateT.bind]
  rcases x w with ⟨_ | _, _⟩ <;> rfl

/-- A look-up leaves the writer as it is, whether or not it succeeds. -/
theorem exec_found_bind {α : Type} (result : Except Failure α) (f : α → Emit Unit) (w : Writer) :
    (found result >>= f).exec w =
      match result with
      | .ok a => (f a).exec w
      | .error e => (.error e, w) := by
  cases result <;> rfl

end Emit

end ClassIdiom
