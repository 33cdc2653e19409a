import ClassIdiom.Layout.Emission
import ClassIdiom.Profile.BuiltIn
import ClassIdiom.Proofs.Logged
import ClassIdiom.Proofs.WrittenText

/-! # Writing members

A member is written piece by piece, and types are looked up in between. What was written before a
failure stays, so a look-up behind a piece could leave half a member in the text. None does: each
member is all looked up before its first piece is written, and then nothing can fail. So writing a
member either puts all its lines or leaves the writer as it is (`exec_emitMember`,
`emitMember_atomic`).

The pieces of a line are followed by what they add up to: `Emit.Completes head x lines` says of the
rest `x` of a writing what becomes of it behind the pieces `head`, and `Emit.Lays x lines` says it of
a writing as a whole. -/

namespace ClassIdiom

/-! ### Pieces and lines -/

namespace Writer

variable (w : Writer)

/-- **Pieces add up** to the text that they make. -/
theorem write_write (a b : String) : (w.write a).write b = w.write (a ++ b) := by
  by_cases ha : a = ""
  · rw [ha, write_empty, String.empty_append]
  by_cases hb : b = ""
  · rw [hb, write_empty, String.append_empty]
  have hab : a ++ b ≠ "" := fun h => ha (String.append_eq_empty_iff.mp h).1
  unfold write
  cases hstart : w.atLineStart <;> simp [ha, hb, hab, String.append_assoc]

theorem line_eq_putLine (s : String) : w.line s = w.putLine ⟨0, s⟩ := by
  unfold putLine line newline write
  split
  · rfl
  · split <;> rfl

theorem line_indent (s : String) : w.indent.line s = (w.putLine ⟨1, s⟩).indent := by
  unfold putLine indent line newline write
  split
  · rfl
  · split <;> rfl

end Writer

namespace Emit

theorem exec_change_bind (f : Writer → Writer) (x : Unit → Emit Unit) (w : Writer) :
    (change f >>= x).exec w = (x ()).exec (f w) := rfl

theorem exec_lines (texts : List String) (w : Writer) :
    (lines texts).exec w = (.ok (), w.putLines (Style.flush texts)) := by
  unfold lines
  induction texts generalizing w with
  | nil => rfl
  | cons s texts ih =>
    show (do line s; texts.forM line).exec w = _
    rw [line, exec_change_bind, ih, Writer.line_eq_putLine]
    rfl

theorem exec_lines_indent (texts : List String) (w : Writer) :
    (lines texts).exec w.indent = (.ok (), (w.putLines (Style.inner texts)).indent) := by
  unfold lines
  induction texts generalizing w with
  | nil => rfl
  | cons s texts ih =>
    show (do line s; texts.forM line).exec w.indent = _
    rw [line, exec_change_bind, Writer.line_indent, ih]
    rfl

theorem exec_innerLines (texts : List String) (w : Writer) :
    (innerLines texts).exec w = (.ok (), w.putLines (Style.inner texts)) := by
  rw [innerLines, exec_change_bind, exec_bind, exec_lines_indent]
  rfl

/-- **A writing lays lines**: it puts them all, or fails and leaves the writer as it is. -/
def Lays (x : Emit Unit) (lines : Except Failure (List Line)) : Prop :=
  ∀ w, x.exec w =
    match lines with
    | .ok lines => (.ok (), w.putLines lines)
    | .error e => (.error e, w)

/-- **A writing completes a line** whose first pieces are written: together they put the lines. -/
def Completes (head : String) (x : Emit Unit) (lines : List Line) : Prop :=
  ∀ w : Writer, x.exec (w.write head) = (.ok (), w.putLines lines)

variable {x : Emit Unit} {head : String} {ls : List Line}

/-- A piece goes to the head. -/
theorem Completes.write {s : String} (h : Completes (head ++ s) x ls) :
    Completes head (do write s; x) ls := by
  intro w
  rw [Emit.write, exec_change_bind, Writer.write_write]
  exact h w

theorem Lays.of_completes (h : Completes "" x ls) : Lays x (.ok ls) := h

/-- The first piece is the head. -/
theorem Completes.start (h : Completes head x ls) : Completes "" (do Emit.write head; x) ls := by
  refine .write ?_
  rw [String.empty_append]
  exact h

/-- Lines above others come first. -/
theorem Lays.lines {texts : List String} (h : Lays x (.ok ls)) :
    Lays (do Emit.lines texts; x) (.ok (Style.flush texts ++ ls)) := by
  intro w
  rw [exec_bind, exec_lines]
  show x.exec (w.putLines (Style.flush texts)) = (.ok (), w.putLines (Style.flush texts ++ ls))
  rw [h, Writer.putLines_append]

/-- A look-up before anything is written can fail. -/
theorem Lays.found {α : Type} {result : Except Failure α} {f : α → Emit Unit}
    {g : α → Except Failure (List Line)} (h : ∀ a, Lays (f a) (g a)) :
    Lays (do let a ← Emit.found result; f a) (do let a ← result; g a) := by
  intro w
  rw [exec_found_bind]
  cases result with
  | error e => rfl
  | ok a => exact h a w

end Emit

/-! ### Members -/

namespace Layout

open Emit (Completes Lays)

variable (l : Layout)

theorem completes_emitEnd (head : String) :
    Completes head l.emitEnd (Style.flush [head ++ l.style.terminator]) := by
  refine .write fun w => ?_
  rw [Emit.newline, Emit.exec_change]
  exact congrArg _ (w.line_eq_putLine _)

theorem completes_emitBlock (head : String) (body : List String) :
    Completes head (l.emitBlock body) (l.style.block head body) := by
  intro w
  unfold emitBlock Style.block
  cases l.style.blocks with
  | braces =>
    have hopen : ((w.write head).newline.line "\x7b") = w.putLines (Style.flush [head, "\x7b"]) := by
      show (w.line head).line "\x7b" = _
      rw [Writer.line_eq_putLine, Writer.line_eq_putLine]
      rfl
    simp only [Emit.newline, Emit.line, Emit.exec_bind, Emit.exec_change, Emit.exec_innerLines]
    rw [hopen, Writer.line_eq_putLine, Writer.putLines_append, Writer.putLines_append]
    rfl
  | indented placeholder =>
    have hopen : (w.write head).line ":" = w.putLines (Style.flush [head ++ ":"]) := by
      show ((w.write head).write ":").newline = _
      rw [Writer.write_write]
      exact w.line_eq_putLine _
    simp only [Emit.line, Emit.exec_change_bind, Emit.exec_innerLines]
    rw [hopen, Writer.putLines_append]

theorem lays_emitField (f : FlatField) : Lays (l.emitField f) (l.fieldLines f) := by
  unfold emitField fieldLines
  refine .found fun type => ?_
  generalize l.style.fieldMarks f.isStatic f.mutability type = marks
  obtain ⟨words, type⟩ := marks
  refine .of_completes (.start (.write (.write ?_)))
  cases f.initial with
  | none =>
    dsimp only
    rw [String.append_empty]
    exact l.completes_emitEnd _
  | some value =>
    dsimp only
    refine .write (.write ?_)
    simp only [← String.append_assoc]
    exact l.completes_emitEnd _

theorem lays_emitMethod (m : FlatMethod) : Lays (l.emitMethod m) (l.methodLines m) := by
  unfold emitMethod methodLines
  refine .found fun result => .found fun params => .lines (.of_completes (.start ?_))
  refine .write (.write (.write (.write (.write (.write ?_)))))
  cases l.bodyLines m with
  | some body => exact l.completes_emitBlock _ body
  | none => exact l.completes_emitEnd _

theorem lays_emitStaticInit (c : FlatConstructor) :
    Lays (l.emitStaticInit c) (l.staticInitLines c) := by
  unfold emitStaticInit staticInitLines
  cases l.style.staticInit with
  | block keyword => exact .of_completes (.start (l.completes_emitBlock keyword c.body))
  | classBody =>
    intro w
    rcases c.body with _ | ⟨s, body⟩
    · cases l.style.blocks with
      | braces => rfl
      | indented placeholder => exact congrArg _ (w.line_eq_putLine placeholder)
    · exact Emit.exec_lines (s :: body) w
  | unsupported => exact fun w => rfl

theorem lays_emitConstructor (c : FlatConstructor) :
    Lays (l.emitConstructor c) (l.constructorLines c) := by
  unfold emitConstructor constructorLines
  split
  · exact l.lays_emitStaticInit c
  · refine .found fun params => .lines (.of_completes (.start ?_))
    refine .write (.write (.write (.write ?_)))
    simp only [← String.append_assoc]
    exact l.completes_emitBlock _ c.body

/-- **A member is written as its lines**, or not at all. -/
theorem lays_emitMember (m : FlatMember) : Lays (l.emitMember m) (l.memberLines m) :=
  match m with
  | .field f => l.lays_emitField f
  | .method m => l.lays_emitMethod m
  | .constructor c => l.lays_emitConstructor c

theorem exec_emitMember (m : FlatMember) (w : Writer) :
    (l.emitMember m).exec w =
      match l.memberLines m with
      | .ok lines => (.ok (), w.putLines lines)
      | .error e => (.error e, w) :=
  l.lays_emitMember m w

/-- **Writing a member is atomic.** If it fails, the writer is as it was. If it succeeds from the
start of a line, the lines of the member stand behind what was written before, at the level of the
writer, and the writer is at the start of a line of the same level. -/
theorem emitMember_atomic (m : FlatMember) (w : Writer) :
    (∀ e w', (l.emitMember m).exec w = (.error e, w') → w' = w ∧ l.memberLines m = .error e) ∧
    ∀ w', (l.emitMember m).exec w = (.ok (), w') → w.atLineStart = true →
      ∃ lines, l.memberLines m = .ok lines ∧
        w'.text = w.text ++ Writer.linesText w.unit w.level lines ∧
        w'.level = w.level ∧ w'.atLineStart = true := by
  rw [exec_emitMember]
  cases l.memberLines m with
  | error e =>
    refine ⟨fun e' w' h => ?_, fun w' h => nomatch h⟩
    obtain ⟨he, hw⟩ := Prod.mk.inj h
    exact ⟨hw.symm, congrArg Except.error (Except.error.inj he)⟩
  | ok lines =>
    refine ⟨fun e w' h => (nomatch h), fun w' h hstart => ?_⟩
    obtain ⟨-, rfl⟩ := Prod.mk.inj h
    exact ⟨lines, rfl, Writer.text_putLines hstart lines, w.level_putLines lines,
      Writer.atLineStart_putLines hstart lines⟩

/-- A method whose parameter is of the given type. -/
def seekMethod (type : String) : FlatMember :=
  .method ⟨"seek", ⟨"seek", [type]⟩, .pub, false, none, none, "void", [⟨"to", type⟩],
    .verbatim ["go(to);"], .declared⟩

/-- The layout of a class in Java. -/
def seekLayout : Layout := ⟨Profile.java.style, TypeNames.of Profile.java [], "Track"⟩

/-- The head of a class is written. -/
def seekWriter : Writer := ⟨"class Track\n\x7b\n", "    ", 1, true⟩

theorem emitMember_atomic_seek :
    (seekLayout.emitMember (seekMethod "Ghost")).exec seekWriter =
      (.error ⟨"Track", some "seek", .unknownType "Ghost"⟩, seekWriter) ∧
    ∃ w', (seekLayout.emitMember (seekMethod "int")).exec seekWriter = (.ok (), w') ∧
      w'.text = seekWriter.text ++
        "    public void seek(int to)\n    \x7b\n        go(to);\n    \x7d\n" ∧
      w'.level = 1 ∧ w'.atLineStart = true := by
  have hfails : ((seekLayout.emitMember (seekMethod "Ghost")).exec seekWriter).1 =
      .error ⟨"Track", some "seek", .unknownType "Ghost"⟩ := by decide
  have hwrites : ((seekLayout.emitMember (seekMethod "int")).exec seekWriter).1 = .ok () := by
    decide
  have htext : ((seekLayout.emitMember (seekMethod "int")).exec seekWriter).2.text =
      seekWriter.text ++
        "    public void seek(int to)\n    \x7b\n        go(to);\n    \x7d\n" := by
    decide
  obtain ⟨hkept, -⟩ :=
    (seekLayout.emitMember_atomic (seekMethod "Ghost") seekWriter).1 _ _ (Prod.ext hfails rfl)
  obtain ⟨lines, -, -, hlevel, hstart⟩ :=
    (seekLayout.emitMember_atomic (seekMethod "int") seekWriter).2 _ (Prod.ext hwrites rfl) rfl
  exact ⟨Prod.ext hfails hkept, _, Prod.ext hwrites rfl, htext, hlevel, hstart⟩

end Layout

end ClassIdiom
