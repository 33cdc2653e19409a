import ClassIdiom.Proofs.FileText

/-! # Rows of a file

The rows of a text are what stands between its line feeds. A class is written line by line, cut into
lines again and written once more into its file; what is written of it stands in the file row by row,
as long as its container does not move it in.

* `Text.lines_append`: the lines of a text that ends with a line feed come before those of what
  follows;
* `Writer.lines_linesText`: a line without a line feed is written as one line, but for a carriage
  return at its end;
* `Style.lines_infix_rows`: the lines of a class are rows of its file, one after the other;
* `Layout.lines_infix_rows_of_infix`: so is what is written of some of its lines in a row. -/

namespace ClassIdiom

namespace Text

/-! ### Rows -/

/-- **The rows of a text**: what stands between its line feeds. -/
def rows (s : String) : List String := (s.toList.splitOn '\n').map String.ofList

variable {s : String} {lines : List String}

theorem rows_append (a b : String) : rows (a ++ "\n" ++ b) = rows a ++ rows b := by
  have hchars : (a ++ "\n" ++ b).toList = a.toList ++ '\n' :: b.toList := by simp
  unfold rows List.splitOn
  rw [hchars, List.splitOnP_append_cons (p := (· == '\n')) _ _ (beq_self_eq_true '\n'),
    List.map_append]

theorem rows_of_not_mem (h : '\n' ∉ s.toList) : rows s = [s] := by
  unfold rows
  rw [List.splitOn_eq_singleton h, List.map_singleton, String.ofList_toList]

/-- Lines that have no line feed within them are rows. -/
theorem rows_unlines_append (h : ∀ line ∈ lines, '\n' ∉ line.toList) (b : String) :
    rows (unlines lines ++ b) = lines ++ rows b := by
  induction lines with
  | nil => exact congrArg rows String.empty_append
  | cons line lines ih =>
    rw [unlines_cons, String.append_assoc, rows_append, rows_of_not_mem (h line List.mem_cons_self),
      ih fun x hx => h x (List.mem_cons_of_mem _ hx), List.singleton_append, List.cons_append]

theorem Complete.eq_empty_or (h : Complete s.toList) : s = "" ∨ ∃ rest, s = rest ++ "\n" := by
  rcases List.eq_nil_or_concat s.toList with hs | ⟨cs, c, hs⟩
  · exact Or.inl (String.toList_eq_nil_iff.mp hs)
  · have hc : c = '\n' := h c (by rw [hs]; simp)
    refine Or.inr ⟨String.ofList cs, String.toList_injective ?_⟩
    rw [hs, hc]
    simp

/-- A complete text ends with an empty row, in whose place the rows of what follows stand. -/
theorem Complete.exists_rows (h : Complete s.toList) :
    ∃ above, rows s = above ++ [""] ∧ ∀ b, rows (s ++ b) = above ++ rows b := by
  rcases h.eq_empty_or with rfl | ⟨rest, rfl⟩
  · exact ⟨[], rfl, fun b => by rw [String.empty_append, List.nil_append]⟩
  · have hlast := rows_append rest ""
    rw [String.append_empty] at hlast
    exact ⟨rows rest, hlast, rows_append rest⟩

/-! ### Lines one after the other -/

/-- The characters without a carriage return at the end. -/
def chompChars (cs : List Char) : List Char := if cs.getLast? = some '\r' then cs.dropLast else cs

/-- **The text without a carriage return at the end**, of which no more than one is dropped. -/
def chomp (s : String) : String := String.ofList (chompChars s.toList)

theorem chompChars_append {a b : List Char} (hb : b ≠ []) :
    chompChars (a ++ b) = a ++ chompChars b := by
  have hlast : (a ++ b).getLast? = b.getLast? := by
    rw [List.getLast?_append, List.getLast?_eq_some_getLast hb]
    rfl
  unfold chompChars
  rw [hlast]
  split
  · exact List.dropLast_append_of_ne_nil hb
  · rfl

theorem chomp_append {a b : String} (hb : b ≠ "") : chomp (a ++ b) = a ++ chomp b := by
  have hchars : b.toList ≠ [] := fun h => hb (String.toList_eq_nil_iff.mp h)
  apply String.toList_injective
  simp [chomp, chompChars_append hchars]

theorem linesOf_cons {c : Char} {cs l : List Char} {ls : List (List Char)} (hfeed : c ≠ '\n')
    (hreturn : ∀ rest, c = '\r' → cs ≠ '\n' :: rest) (h : linesOf cs = l :: ls) :
    linesOf (c :: cs) = (c :: l) :: ls := by
  rw [linesOf]
  · rw [h]
  · exact hfeed
  · exact hreturn

/-- A line that has an end is the first one of what it starts. -/
theorem linesOf_line {line : List Char} (h : '\n' ∉ line) (rest : List Char) :
    linesOf (line ++ '\n' :: rest) = chompChars line :: linesOf rest := by
  induction line with
  | nil => rfl
  | cons c line ih =>
    have hc : c ≠ '\n' := Ne.symm (List.ne_of_not_mem_cons h)
    have hline := ih (List.not_mem_of_not_mem_cons h)
    cases line with
    | nil =>
      by_cases hreturn : c = '\r'
      · subst hreturn
        rfl
      · rw [List.cons_append, linesOf_cons hc (fun _ hr => absurd hr hreturn) hline]
        simp [chompChars, hreturn]
    | cons d line =>
      have hd : d ≠ '\n' := Ne.symm (List.ne_of_not_mem_cons (List.not_mem_of_not_mem_cons h))
      have hnext : ∀ rest', c = '\r' → d :: line ++ '\n' :: rest ≠ '\n' :: rest' :=
        fun _ _ hr => hd (List.cons.inj hr).1
      have hchomp : chompChars (c :: d :: line) = c :: chompChars (d :: line) :=
        chompChars_append (a := [c]) (List.cons_ne_nil d line)
      rw [List.cons_append, linesOf_cons hc hnext hline, hchomp]

theorem lines_line {line : String} (h : '\n' ∉ line.toList) (rest : String) :
    Text.lines (line ++ "\n" ++ rest) = chomp line :: Text.lines rest := by
  have hchars : (line ++ "\n" ++ rest).toList = line.toList ++ '\n' :: rest.toList := by simp
  unfold Text.lines
  rw [hchars, linesOf_line h, List.map_cons]
  rfl

theorem linesOf_append {a : List Char} (h : Complete a) (b : List Char) :
    linesOf (a ++ b) = linesOf a ++ linesOf b := by
  fun_induction linesOf a with
  | case1 => rfl
  | case2 cs ih => exact congrArg ([] :: ·) (ih h.tail)
  | case3 cs ih => exact congrArg ([] :: ·) (ih h.tail.tail)
  | case4 c cs hfeed _ hlines ih =>
    -- A complete text has no last line without an end.
    obtain rfl := linesOf_eq_nil_iff.mp hlines
    exact absurd (h c rfl) hfeed
  | case5 c cs hfeed hreturn l ls hlines ih =>
    have hcs : cs ≠ [] := fun hnil =>
      List.cons_ne_nil l ls (hlines.symm.trans (linesOf_eq_nil_iff.mpr hnil))
    obtain ⟨d, ds, rfl⟩ := List.exists_cons_of_ne_nil hcs
    have hrest := ih h.tail
    rw [hlines] at hrest
    refine linesOf_cons hfeed (fun rest hc hd => ?_) hrest
    exact hreturn ds hc (congrArg (· :: ds) (List.cons.inj hd).1)

/-- **The lines of two texts** one after the other, if the first one is complete. -/
theorem lines_append {a : String} (h : Complete a.toList) (b : String) :
    Text.lines (a ++ b) = Text.lines a ++ Text.lines b := by
  unfold Text.lines
  rw [String.toList_append, linesOf_append h, List.map_append]

end Text

namespace Writer

/-- A line as it stands in a text, without its end. -/
def row (unit : String) (l : Line) : String :=
  if l.text = "" then "" else indentation unit l.depth ++ l.text

theorem written_eq_row (unit : String) (l : Line) : written unit 0 l = row unit l ++ "\n" := by
  unfold written row
  rw [Nat.zero_add]

theorem complete_linesText (unit : String) (level : Nat) (lines : List Line) :
    Text.Complete (linesText unit level lines).toList := by
  rcases linesText_eq_empty_or unit level lines with h | ⟨rest, h⟩
  · rw [h]
    exact fun c hc => nomatch hc
  · rw [h]
    exact Text.complete_append rest

theorem lines_linesText_append (unit : String) (a b : List Line) :
    Text.lines (linesText unit 0 (a ++ b)) =
      Text.lines (linesText unit 0 a) ++ Text.lines (linesText unit 0 b) := by
  rw [linesText_append, Text.lines_append (complete_linesText unit 0 a)]

/-- What is written for some lines in a row stands in a row. -/
theorem lines_linesText_infix (unit : String) {part lines : List Line} (h : part <:+: lines) :
    Text.lines (linesText unit 0 part) <:+: Text.lines (linesText unit 0 lines) := by
  obtain ⟨a, b, rfl⟩ := h
  rw [lines_linesText_append, lines_linesText_append]
  exact ⟨_, _, rfl⟩

theorem not_mem_indentation {unit : String} (h : '\n' ∉ unit.toList) (level : Nat) :
    '\n' ∉ (indentation unit level).toList := by
  unfold indentation
  rw [String.toList_join, List.mem_flatMap]
  rintro ⟨s, hs, hmem⟩
  rw [List.eq_of_mem_replicate hs] at hmem
  exact h hmem

/-- **A line without a line feed** is written as one line, but for a carriage return at its end. -/
theorem lines_linesText {unit : String} (hu : '\n' ∉ unit.toList) {lines : List Line}
    (h : ∀ l ∈ lines, '\n' ∉ l.text.toList) :
    Text.lines (linesText unit 0 lines) = lines.map fun l => Text.chomp (row unit l) := by
  induction lines with
  | nil => rfl
  | cons l lines ih =>
    have hrow : '\n' ∉ (row unit l).toList := by
      unfold row
      split
      · exact List.not_mem_nil
      · rw [String.toList_append, List.mem_append]
        rintro (hmem | hmem)
        · exact not_mem_indentation hu _ hmem
        · exact h l List.mem_cons_self hmem
    rw [linesText_cons, written_eq_row, Text.lines_line hrow,
      ih fun x hx => h x (List.mem_cons_of_mem _ hx), List.map_cons]

end Writer

/-! ### From the class to the file -/

namespace Style

/-- The container of a class does not move it in. -/
def KeepsLevel (s : Style) : Prop :=
  s.blocks = .braces ∨ ∀ format separator, s.preamble.container ≠ .block format separator

variable {s : Style}

theorem keepsLevel_builtIn (t : Target) : (Profile.builtIn t).style.KeepsLevel := by
  cases t with
  | java => exact Or.inl rfl
  | cpp => exact Or.inl rfl
  | python => exact Or.inr fun _ _ h => nomatch h

theorem exists_containedLines_eq (h : s.KeepsLevel) (container : Option String) (text : String) :
    ∃ above below, s.containedLines container text =
      flush (above ++ Text.lines text ++ below) := by
  unfold containedLines
  split
  · next hblock =>
    rcases h with hbraces | hno
    · rw [hbraces]
      exact ⟨_, _, rfl⟩
    · exact absurd hblock (hno _ _)
  · exact ⟨[], [], by rw [List.nil_append, List.append_nil]⟩

/-- **The lines of a class are rows of its file**, one after the other. -/
theorem lines_infix_rows (h : s.KeepsLevel) (c : Resolved) (text : String) :
    Text.lines text <:+: Text.rows (s.fileText c text) := by
  obtain ⟨above, below, hlines⟩ := exists_containedLines_eq h c.container text
  have htext : s.fileText c text =
      Text.unlines (Preamble.groupLines (s.preamble.groups c text) ++ above) ++
        (Text.unlines (Text.lines text) ++ Text.unlines below) := by
    unfold fileText fileLines
    rw [Writer.text_putLines_new, Writer.linesText_append, Writer.linesText_flush, hlines,
      Writer.linesText_flush]
    simp only [Text.unlines_append, String.append_assoc]
  have hcomplete (lines : List String) : Text.Complete (Text.unlines lines).toList := by
    rw [← Writer.linesText_flush s.indent]
    exact Writer.complete_linesText _ _ _
  obtain ⟨front, -, hrows⟩ := (hcomplete _).exists_rows
  rw [htext, hrows, Text.rows_unlines_append fun _ => Text.not_mem_of_mem_lines, ← List.append_assoc]
  exact ⟨_, _, rfl⟩

end Style

namespace Layout

variable {l : Layout} {c : Resolved}

/-- The lines of a class below its head, whose members have the given lines. -/
def linesBelow (l : Layout) (c : Resolved) (lines : List (List Line)) : List Line :=
  (l.parts none (c.members.zip lines)).flatMap Part.lines ++
    (Line.nest (l.emptyLines c) ++ l.endLines)

theorem assemble_eq_append (l : Layout) (c : Resolved) (lines : List (List Line)) :
    l.assemble c lines =
      l.headText c ++ Writer.linesText l.style.indent 0 (l.linesBelow c lines) := by
  rw [assemble_eq, Writer.text_putLines_new, List.append_assoc, List.append_assoc,
    Writer.linesText_append, headText_eq]
  rfl

theorem complete_headText (l : Layout) (c : Resolved) : Text.Complete (l.headText c).toList := by
  rw [headText_eq]
  exact Writer.complete_linesText _ _ _

/-- The lines of a member are lines of the class, one level further in. -/
theorem nest_infix_linesBelow {lines : List (List Line)}
    (h : c.members.mapM l.memberLines = .ok lines) {x : FlatMember} (hx : x ∈ c.members) :
    ∃ ls, l.memberLines x = .ok ls ∧ Line.nest ls <:+: l.linesBelow c lines := by
  obtain ⟨ls, hpart, hls⟩ := (writtenIn_parts h).exists_part hx
  have hparts : Line.nest ls <:+: (l.parts none (c.members.zip lines)).flatMap Part.lines := by
    rw [List.flatMap_def]
    exact List.infix_of_mem_flatten (List.mem_map_of_mem hpart)
  exact ⟨ls, hls, hparts.trans (List.prefix_append _ _).isInfix⟩

/-- **What is written of a class** below its head, in lines one after the other, stands so in its
file. -/
theorem lines_infix_rows_of_infix (hs : l.style.KeepsLevel) {lines : List (List Line)}
    {part : List Line} (h : part <:+: l.linesBelow c lines) :
    Text.lines (Writer.linesText l.style.indent 0 part) <:+:
      Text.rows (l.style.fileText c (l.assemble c lines)) := by
  have hlines : Text.lines (l.assemble c lines) = Text.lines (l.headText c) ++
      Text.lines (Writer.linesText l.style.indent 0 (l.linesBelow c lines)) := by
    rw [assemble_eq_append, Text.lines_append (l.complete_headText c)]
  have hclass := Style.lines_infix_rows hs c (l.assemble c lines)
  rw [hlines] at hclass
  exact (Writer.lines_linesText_infix _ h).trans ((List.suffix_append _ _).isInfix.trans hclass)

end Layout

end ClassIdiom
