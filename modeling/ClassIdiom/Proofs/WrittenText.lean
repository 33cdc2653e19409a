import ClassIdiom.Proofs.Tokens
import ClassIdiom.Writer

/-! # Written text

A writer that puts whole lines makes one text of them: `text_putLines` gives it as the lines one
after the other, each with its indentation and an end. So each line can be found again in the text,
where it stands apart from its neighbours (`setApart_of_mem_lines`), and one that is not indented is
a line of the text as it is (`hasLine_of_mem_lines`). -/

namespace ClassIdiom

namespace Text

/-- **The text has the line**: it starts the text or follows the end of a line, and ends itself. -/
def HasLine (text line : String) : Prop :=
  ∃ above below, text = above ++ line ++ "\n" ++ below ∧ (above = "" ∨ ∃ rest, above = rest ++ "\n")

theorem endsApart_join {pieces : List String} (h : ∀ s ∈ pieces, EndsApart s) :
    EndsApart (String.join pieces) := by
  induction pieces with
  | nil => exact endsApart_empty
  | cons s pieces ih =>
    rw [String.join_cons]
    exact (h s List.mem_cons_self).append (ih fun x hx => h x (List.mem_cons_of_mem _ hx))

end Text

namespace Writer

open Text (EndsApart SetApart HasLine)

theorem write_empty (w : Writer) : w.write "" = w := rfl

/-- The first text of a line that is not empty comes behind the indentation, -/
theorem write_start {w : Writer} (h : w.atLineStart = true) {s : String} (hs : s ≠ "") :
    w.write s =
      { w with text := w.text ++ (indentation w.unit w.level ++ s), atLineStart := false } := by
  simp [write, hs, h, String.append_assoc]

/-- and any further one comes as it is. -/
theorem write_within {w : Writer} (h : w.atLineStart = false) (s : String) :
    w.write s = { w with text := w.text ++ s } := by
  by_cases hs : s = ""
  · rw [hs, write_empty, String.append_empty]
  · simp [write, hs, h]

theorem unit_write (w : Writer) (s : String) : (w.write s).unit = w.unit := by
  unfold write
  split
  · rfl
  · split <;> rfl

/-- A line as it is written, from the indentation to the end. -/
def written (unit : String) (level : Nat) (l : Line) : String :=
  (if l.text = "" then "" else indentation unit (level + l.depth) ++ l.text) ++ "\n"

/-- **Lines as they are written**, one after the other. -/
def linesText (unit : String) (level : Nat) (lines : List Line) : String :=
  String.join (lines.map (written unit level))

theorem linesText_cons (unit : String) (level : Nat) (l : Line) (lines : List Line) :
    linesText unit level (l :: lines) = written unit level l ++ linesText unit level lines := by
  unfold linesText
  rw [List.map_cons, String.join_cons]

theorem linesText_append (unit : String) (level : Nat) (a b : List Line) :
    linesText unit level (a ++ b) = linesText unit level a ++ linesText unit level b := by
  unfold linesText
  rw [List.map_append, String.join_append]

theorem unit_putLine (w : Writer) (l : Line) : (w.putLine l).unit = w.unit :=
  unit_write { w with level := w.level + l.depth } l.text

theorem text_putLine {w : Writer} (h : w.atLineStart = true) (l : Line) :
    (w.putLine l).text = w.text ++ written w.unit w.level l := by
  have hline : (w.putLine l).text =
      (({ w with level := w.level + l.depth } : Writer).write l.text).text ++ "\n" := rfl
  rw [hline, written]
  by_cases hl : l.text = ""
  · rw [hl, write_empty, if_pos rfl, String.empty_append]
  · rw [write_start (w := { w with level := w.level + l.depth }) h hl, if_neg hl,
      String.append_assoc]

theorem atLineStart_putLines {w : Writer} (h : w.atLineStart = true) (lines : List Line) :
    (w.putLines lines).atLineStart = true := by
  induction lines generalizing w with
  | nil => exact h
  | cons l lines ih => exact ih (atLineStart_putLine w l)

/-- **The text of lines** is made of the lines one after the other. -/
theorem text_putLines {w : Writer} (h : w.atLineStart = true) (lines : List Line) :
    (w.putLines lines).text = w.text ++ linesText w.unit w.level lines := by
  induction lines generalizing w with
  | nil => simp [putLines, linesText]
  | cons l lines ih =>
    change ((w.putLine l).putLines lines).text = _
    rw [ih (atLineStart_putLine w l), text_putLine h, unit_putLine, level_putLine, linesText_cons,
      String.append_assoc]

theorem text_putLines_new (unit : String) (lines : List Line) :
    ((new unit).putLines lines).text = linesText unit 0 lines := by
  rw [text_putLines rfl]
  exact String.empty_append

/-- What is written in lines ends with the end of a line. -/
theorem exists_linesText_eq_append (unit : String) (level : Nat) {lines : List Line}
    (h : lines ≠ []) : ∃ rest, linesText unit level lines = rest ++ "\n" := by
  induction lines with
  | nil => exact absurd rfl h
  | cons l lines ih =>
    rw [linesText_cons]
    by_cases hlines : lines = []
    · subst hlines
      exact ⟨_, String.append_empty⟩
    · obtain ⟨rest, hrest⟩ := ih hlines
      rw [hrest, ← String.append_assoc]
      exact ⟨_, rfl⟩

theorem linesText_eq_empty_or (unit : String) (level : Nat) (lines : List Line) :
    linesText unit level lines = "" ∨ ∃ rest, linesText unit level lines = rest ++ "\n" := by
  by_cases h : lines = []
  · exact Or.inl (h ▸ rfl)
  · exact Or.inr (exists_linesText_eq_append unit level h)

/-- A line that is not indented is written as it is. -/
theorem written_flush (unit text : String) : written unit 0 ⟨0, text⟩ = text ++ "\n" := by
  by_cases hempty : text = "" <;> simp [written, indentation, hempty]

variable {unit : String} {lines : List Line}

/-- A line that is written stands between those before and those after it. -/
theorem exists_around_of_mem_lines (unit : String) {l : Line} (hl : l ∈ lines) :
    ∃ above below, ((new unit).putLines lines).text = above ++ written unit 0 l ++ below ∧
      (above = "" ∨ ∃ rest, above = rest ++ "\n") := by
  obtain ⟨before, after, rfl⟩ := List.append_of_mem hl
  refine ⟨_, linesText unit 0 after, ?_, linesText_eq_empty_or unit 0 before⟩
  rw [text_putLines_new, linesText_append, linesText_cons, String.append_assoc]

/-- **A line that is not indented** is a line of the text. -/
theorem hasLine_of_mem_lines {text : String} (hl : ⟨0, text⟩ ∈ lines) :
    HasLine ((new unit).putLines lines).text text := by
  obtain ⟨above, below, htext, habove⟩ := exists_around_of_mem_lines unit hl
  exact ⟨above, below, by rw [htext, written_flush, ← String.append_assoc], habove⟩

/-- **The content of a line** stands apart in the text. -/
theorem setApart_of_mem_lines (hu : EndsApart unit) {l : Line} (hl : l ∈ lines) :
    SetApart l.text ((new unit).putLines lines).text := by
  obtain ⟨above, below, htext, habove⟩ := exists_around_of_mem_lines unit hl
  have habove' : EndsApart above := by
    rcases habove with rfl | ⟨rest, rfl⟩
    · exact Text.endsApart_empty
    · exact Text.endsApart_mark (by decide) rest
  have hindent : EndsApart (indentation unit (0 + l.depth)) :=
    Text.endsApart_join fun s hs => (List.eq_of_mem_replicate hs) ▸ hu
  have hcontent : SetApart l.text
      (if l.text = "" then "" else indentation unit (0 + l.depth) ++ l.text) := by
    split
    · next hempty => exact hempty ▸ SetApart.refl ""
    · exact (SetApart.refl l.text).prepend hindent
  unfold written at htext
  rw [htext, String.append_assoc, String.append_assoc, ← String.append_assoc]
  exact (hcontent.prepend habove').append (Text.startsApart_mark (by decide) below)

end Writer

end ClassIdiom
