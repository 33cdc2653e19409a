import ClassIdiom.Profile.BuiltIn
import ClassIdiom.Proofs.ClassParts
import ClassIdiom.Proofs.WrittenText

/-! # The text of a class from the texts of its members

Members are written one after the other on a writer that all of them share. Still, what a member adds
to the text does not depend on what was written before it: `Layout.memberText` is the text of a
member that is written alone, `Style.separation` what stands between two members, and the text of a
class is put together from these, its head and its end.

* `linesText_parts`: the parts of a class, written as lines, make up these texts;
* `classText_composed`: so does the class, and behind each member the writer is one level in and at
  the start of a line. -/

namespace ClassIdiom

/-! ### What stands between members -/

/-- The label of a section, on a line of its own. A level without a keyword has none. -/
def Access.label (a : Access) : String :=
  match a.keyword? with
  | some word => word ++ ":\n"
  | none => ""

namespace Style

/-- **What separates a member** from the one before it: an empty line and a label where a section
begins, nothing between two fields of one section, and an empty line otherwise. Before the first
member there is no more than a label. Without labels all members form one section. -/
def separation (s : Style) : Option FlatMember → FlatMember → String
  | none, m => if s.access = .sections then m.access.label else ""
  | some p, m =>
    if s.access = .sections ∧ p.access ≠ m.access then "\n" ++ m.access.label
    else if p.isField ∧ m.isField then ""
    else "\n"

/-- The texts of members, each behind what separates it from the one before. -/
def joined (s : Style) : Option FlatMember → List (FlatMember × String) → String
  | _, [] => ""
  | previous, (m, text) :: rest => s.separation previous m ++ text ++ s.joined (some m) rest

end Style

namespace Layout

variable (l : Layout)

/-! ### Members alone -/

/-- **The text of a member** that is written alone, one level in and from the start of a line. -/
def memberText (m : FlatMember) : Except Failure String :=
  Emit.text (do Emit.change Writer.indent; l.emitMember m) l.style.indent

theorem memberText_eq (m : FlatMember) :
    l.memberText m = (l.memberLines m).map (Writer.linesText l.style.indent 1) := by
  unfold memberText Emit.text
  rw [Emit.exec_bind, Emit.exec_change]
  simp only [exec_emitMember]
  cases l.memberLines m with
  | error e => rfl
  | ok lines =>
    have htext := Writer.text_putLines (w := (Writer.new l.style.indent).indent) rfl lines
    exact congrArg Except.ok (htext.trans String.empty_append)

theorem forall₂_memberText {ms : List FlatMember} {lines : List (List Line)}
    (h : ms.mapM l.memberLines = .ok lines) :
    List.Forall₂ (fun m t => l.memberText m = .ok t) ms
      (lines.map (Writer.linesText l.style.indent 1)) := by
  rw [List.forall₂_map_right_iff]
  refine (Logged.except_mapM_ok_iff.mp h).imp fun m ls hm => ?_
  rw [memberText_eq, hm]
  rfl

/-! ### Parts as texts -/

theorem linesText_nest (unit : String) (lines : List Line) :
    Writer.linesText unit 0 (Line.nest lines) = Writer.linesText unit 1 lines := by
  unfold Writer.linesText Line.nest
  rw [List.map_map]
  refine congrArg String.join (List.map_congr_left fun x _ => ?_)
  have hdepth : 0 + (x.depth + 1) = 1 + x.depth := by omega
  simp only [Function.comp_apply, Writer.written, hdepth]

theorem linesText_gap (unit : String) :
    Writer.linesText unit 0 ([Part.gap].flatMap Part.lines) = "\n" := rfl

theorem linesText_label (unit : String) (a : Access) :
    Writer.linesText unit 0 ((a.keyword?.map Part.label).toList.flatMap Part.lines) = a.label := by
  unfold Access.label
  cases a.keyword? with
  | none => rfl
  | some word =>
    simp [Part.lines, Writer.linesText, Writer.written, Writer.indentation, String.append_assoc]

theorem linesText_separator (unit : String) (previous : Option FlatMember) (m : FlatMember) :
    Writer.linesText unit 0 ((l.separator previous m).flatMap Part.lines) =
      l.style.separation previous m := by
  unfold separator
  cases previous with
  | none =>
    have hstarts : l.startsSection none m = true ↔ l.style.access = .sections := by
      simp [startsSection]
    rw [Style.separation]
    split
    · next h =>
      rw [if_pos (hstarts.mp h)]
      exact linesText_label unit m.access
    · next h =>
      rw [if_neg (mt hstarts.mpr h)]
      rfl
  | some p =>
    have hstarts : l.startsSection (some p) m = true ↔
        l.style.access = .sections ∧ p.access ≠ m.access := by
      simp [startsSection]
    have hgap : needsGap (some p) m = true ↔ ¬ (p.isField = true ∧ m.isField = true) := by
      simp [needsGap, imp_iff_not_or]
    rw [Style.separation]
    split
    · next h =>
      rw [if_pos (hstarts.mp h), List.flatMap_append, Writer.linesText_append, linesText_label]
      rfl
    · next h =>
      rw [if_neg (mt hstarts.mpr h)]
      split
      · next hg =>
        rw [if_neg (hgap.mp hg)]
        exact linesText_gap unit
      · next hg =>
        rw [if_pos (not_not.mp (mt hgap.mpr hg))]
        rfl

/-- **The parts of a class** are the texts of its members and what separates them. -/
theorem linesText_parts (unit : String) (previous : Option FlatMember) (ms : List FlatMember)
    (lines : List (List Line)) :
    Writer.linesText unit 0 ((l.parts previous (ms.zip lines)).flatMap Part.lines) =
      l.style.joined previous (ms.zip (lines.map (Writer.linesText unit 1))) := by
  induction ms generalizing previous lines with
  | nil => rfl
  | cons m ms ih =>
    cases lines with
    | nil => rfl
    | cons ls lines =>
      rw [List.zip_cons_cons, parts, List.flatMap_append, List.flatMap_cons,
        Writer.linesText_append, Writer.linesText_append, linesText_separator, ih, Part.lines,
        linesText_nest, List.map_cons, List.zip_cons_cons, Style.joined, String.append_assoc]

/-! ### The class -/

/-- The writer behind the head of a class, one level in. -/
def headWriter (c : Resolved) : Writer :=
  ((Writer.new l.style.indent).putLines (l.headLines c)).indent

/-- The text of the head of a class. -/
def headText (c : Resolved) : String := (l.headWriter c).text

/-- The text of the end of a class, with the placeholder if there are no members. -/
def endText (c : Resolved) : String :=
  (((Writer.new l.style.indent).indent.putLines (l.emptyLines c)).dedent.putLines l.endLines).text

theorem headText_eq (c : Resolved) :
    l.headText c = Writer.linesText l.style.indent 0 (l.headLines c) :=
  Writer.text_putLines_new l.style.indent (l.headLines c)

theorem endText_eq (c : Resolved) :
    l.endText c = Writer.linesText l.style.indent 0 (Line.nest (l.emptyLines c) ++ l.endLines) := by
  rw [← Writer.text_putLines_new, Writer.putLines_append]
  unfold endText
  rw [Writer.putLines_indent]
  rfl

theorem assemble_composed (c : Resolved) (lines : List (List Line)) :
    l.assemble c lines = l.headText c ++ l.style.joined none (c.members.zip
      (lines.map (Writer.linesText l.style.indent 1))) ++ l.endText c := by
  rw [assemble_eq, Writer.text_putLines_new, List.append_assoc, Writer.linesText_append,
    Writer.linesText_append, linesText_parts, headText_eq, endText_eq]

/-- Members at the back are written as if they came after those at the front. -/
theorem exec_emitMembers_append (front back : List FlatMember) (previous : Option FlatMember)
    (w : Writer) :
    (l.emitMembers previous (front ++ back)).exec w =
      match (l.emitMembers previous front).exec w with
      | (.ok (), w') => (l.emitMembers (front.getLast?.or previous) back).exec w'
      | (.error e, w') => (.error e, w') := by
  induction front generalizing previous w with
  | nil => rfl
  | cons m front ih =>
    have hlast : (m :: front).getLast?.or previous = front.getLast?.or (some m) := by
      cases h : front.getLast? <;> simp [List.getLast?_cons, h]
    rw [List.cons_append, exec_emitMembers_cons, exec_emitMembers_cons, hlast]
    cases l.memberLines m with
    | error e => rfl
    | ok lines => exact ih (some m) _

/-- **Behind the members at the front** the writer is one level in, at the start of a line, and holds
the head and the texts of these members. -/
theorem exec_emitMembers_front {name : String} {front : List FlatMember} {lines : List (List Line)}
    (h : front.mapM { l with className := name }.memberLines = .ok lines) (c : Resolved) :
    ∃ w, ({ l with className := name }.emitMembers none front).exec (l.headWriter c) =
        (.ok (), w) ∧
      w.level = 1 ∧ w.atLineStart = true ∧ w.text = l.headText c ++ l.style.joined none (front.zip
        (lines.map (Writer.linesText l.style.indent 1))) := by
  have hexec := exec_emitMembers_of_ok h none (l.headWriter c)
  rw [headWriter, placeMembers_indent] at hexec
  have hstart : ((Writer.new l.style.indent).putLines (l.headLines c)).atLineStart = true :=
    Writer.atLineStart_putLines rfl _
  refine ⟨_, hexec, ?_, Writer.atLineStart_putLines hstart _, ?_⟩
  · change Writer.level _ + 1 = 1
    rw [Writer.level_putLines, Writer.level_putLines]
    rfl
  · rw [← linesText_parts { l with className := name }, headText_eq, ← Writer.linesText_append,
      ← Writer.text_putLines_new, Writer.putLines_append]
    rfl

/-- **The text of a class is made of the texts of its members**, each as it is written alone, with
the head before them, the end behind them and what separates them in between. Behind each member the
writer is one level in and at the start of a line. -/
theorem classText_composed {c : Resolved} {text : String} (h : l.classText c = .ok text) :
    ∃ texts, List.Forall₂ (fun m t => { l with className := c.name }.memberText m = .ok t)
        c.members texts ∧
      text = l.headText c ++ l.style.joined none (c.members.zip texts) ++ l.endText c ∧
      ∀ front back, c.members = front ++ back → ∃ w,
        ({ l with className := c.name }.emitMembers none front).exec (l.headWriter c) =
          (.ok (), w) ∧
        w.level = 1 ∧ w.atLineStart = true ∧
        w.text = l.headText c ++ l.style.joined none (front.zip texts) ∧
        ({ l with className := c.name }.emitMembers none c.members).exec (l.headWriter c) =
          ({ l with className := c.name }.emitMembers front.getLast? back).exec w := by
  obtain ⟨lines, hlines, rfl⟩ := classText_ok_iff.mp h
  refine ⟨_, forall₂_memberText _ hlines, assemble_composed _ c lines, fun front back hm => ?_⟩
  rw [hm, List.mapM_append] at hlines
  obtain ⟨linesFront, hfront, hlines⟩ := Logged.except_bind_ok_iff.mp hlines
  obtain ⟨linesBack, -, hlines⟩ := Logged.except_bind_ok_iff.mp hlines
  obtain rfl := Except.ok.inj hlines
  obtain ⟨w, hexec, hlevel, hstart, htext⟩ := l.exec_emitMembers_front hfront c
  refine ⟨w, hexec, hlevel, hstart, ?_, ?_⟩
  · have hlength := (forall₂_memberText _ hfront).length_eq
    rw [htext, List.map_append, ← List.append_nil front, List.zip_append hlength, List.append_nil,
      List.zip_nil_left, List.append_nil]
  · rw [hm, exec_emitMembers_append, hexec, Option.or_none]

/-! ### A class of two sections -/

/-- A private field of a class. -/
def trackField (name type : String) : FlatMember :=
  .field ⟨name, .priv, false, type, none, .mutable, .declared⟩

/-- A public method of a class, of one statement. -/
def trackMethod (name result statement : String) : FlatMember :=
  .method ⟨name, ⟨name, []⟩, .pub, false, none, none, result, [], .verbatim [statement], .declared⟩

/-- A class with two fields and a method. -/
def track : Resolved where
  name := "Track"
  access := .pub
  special := none
  container := none
  imports := []
  base := none
  capabilities := []
  members := [
    trackField "title" "string", trackField "length" "int", trackMethod "play" "void" "start();"]

/-- The layout of a class in C++ that has no name yet. -/
def cppLayout : Layout := ⟨Profile.cpp.style, TypeNames.of Profile.cpp [], ""⟩

/-- The text of the class. -/
def trackText : String :=
  "class Track\n\x7b\n" ++
    "private:\n    std::string title;\n    int32_t length;\n\n" ++
    "public:\n    void play()\n    \x7b\n        start();\n    \x7d\n" ++ "\x7d;\n"

theorem classText_composed_track :
    cppLayout.classText track = .ok trackText ∧
      ∃ texts, List.Forall₂ (fun m t => { cppLayout with className := "Track" }.memberText m = .ok t)
          track.members texts ∧
        trackText = cppLayout.headText track ++
          cppLayout.style.joined none (track.members.zip texts) ++ cppLayout.endText track ∧
        ∃ w, ({ cppLayout with className := "Track" }.emitMembers none
            [trackField "title" "string", trackField "length" "int"]).exec
              (cppLayout.headWriter track) = (.ok (), w) ∧
          w.level = 1 ∧ w.atLineStart = true ∧
          w.text = cppLayout.headText track ++ cppLayout.style.joined none
            ([trackField "title" "string", trackField "length" "int"].zip texts) := by
  have htext : cppLayout.classText track = .ok trackText := by decide
  obtain ⟨texts, hmembers, hcomposed, hfront⟩ := classText_composed cppLayout htext
  obtain ⟨w, hexec, hlevel, hstart, hw, -⟩ :=
    hfront [trackField "title" "string", trackField "length" "int"]
      [trackMethod "play" "void" "start();"] rfl
  exact ⟨htext, texts, hmembers, hcomposed, w, hexec, hlevel, hstart, hw⟩

end Layout

end ClassIdiom
