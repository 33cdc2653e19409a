import ClassIdiom.Proofs.ClassText

/-! # The parts of a class

Between its head and its end a class is a list of parts: members, and before a member a gap or the
label of a section. `Layout.parts` lists them from the members and their lines alone. Writing a
class goes back and forth between two levels of indentation; `assemble_eq` says that the outcome is
the lines of the parts, each at a level of its own. -/

namespace ClassIdiom

/-! ### Lines one level in -/

namespace Writer

variable (w : Writer)

theorem level_line (text : String) : (w.line text).level = w.level := by
  unfold line newline write
  split
  · rfl
  · split <;> rfl

theorem putLine_flush (text : String) : w.putLine ⟨0, text⟩ = w.line text := by
  change { w.line text with level := w.level } = w.line text
  rw [← w.level_line text]

theorem putLine_indent (l : Line) :
    w.indent.putLine l = (w.putLine { l with depth := l.depth + 1 }).indent := by
  have hlevel : w.level + 1 + l.depth = w.level + (l.depth + 1) := by omega
  unfold putLine indent
  simp only [hlevel]

theorem putLines_indent (lines : List Line) :
    w.indent.putLines lines = (w.putLines (Line.nest lines)).indent := by
  induction lines generalizing w with
  | nil => rfl
  | cons l lines ih =>
    change (w.indent.putLine l).putLines lines = _
    rw [putLine_indent, ih]
    rfl

end Writer

/-! ### Parts -/

/-- A part of a class between its head and its end. -/
inductive Part where
  /-- An empty line. -/
  | gap
  /-- The word that starts a section. -/
  | label (word : String)
  /-- A member with its lines. -/
  | member (m : FlatMember) (lines : List Line)
deriving DecidableEq, Repr

namespace Part

/-- The lines of a part. Members stand one level in. -/
def lines : Part → List Line
  | gap => [⟨0, ""⟩]
  | label word => [⟨0, word ++ ":"⟩]
  | member _ lines => Line.nest lines

/-- The member, if the part is one. -/
def member? : Part → Option (FlatMember × List Line)
  | member m lines => some (m, lines)
  | gap | label _ => none

/-- The word of a label, if the part is one. -/
def label? : Part → Option String
  | label word => some word
  | gap | member _ _ => none

end Part

namespace Layout

variable (l : Layout)

/-- The parts before a member that follows another one or none. -/
def separator (previous : Option FlatMember) (m : FlatMember) : List Part :=
  if l.startsSection previous m then
    (if previous.isSome then [.gap] else []) ++ (m.access.keyword?.map .label).toList
  else if needsGap previous m then [.gap]
  else []

/-- The parts of a class from its members, the first of which follows another one or none. -/
def parts (l : Layout) : Option FlatMember → List (FlatMember × List Line) → List Part
  | _, [] => []
  | previous, (m, lines) :: rest =>
    l.separator previous m ++ .member m lines :: l.parts (some m) rest

/-! ### Writing the parts -/

theorem separate_indent (previous : Option FlatMember) (m : FlatMember) (w : Writer) :
    l.separate previous m w.indent =
      (w.putLines ((l.separator previous m).flatMap Part.lines)).indent := by
  unfold separate separator
  split
  · -- The label stands one level out, behind an empty line unless it is the first.
    have hgap : (if previous.isSome then w.indent.newline else w.indent).dedent =
        w.putLines ((if previous.isSome then [Part.gap] else []).flatMap Part.lines) := by
      cases previous <;> rfl
    simp only [hgap, List.flatMap_append, Writer.putLines_append]
    generalize w.putLines _ = w'
    cases m.access.keyword? with
    | none => rfl
    | some word => exact congrArg Writer.indent (w'.putLine_flush _).symm
  · split <;> rfl

theorem placeMembers_indent (ms : List (FlatMember × List Line)) (previous : Option FlatMember)
    (w : Writer) :
    l.placeMembers previous ms w.indent =
      (w.putLines ((l.parts previous ms).flatMap Part.lines)).indent := by
  induction ms generalizing previous w with
  | nil => rfl
  | cons e ms ih =>
    obtain ⟨m, lines⟩ := e
    rw [placeMembers, separate_indent, Writer.putLines_indent, ih, parts, List.flatMap_append,
      List.flatMap_cons, Writer.putLines_append, Writer.putLines_append]
    rfl

/-- **The text of a class** is that of its head, its parts and its end, line by line. -/
theorem assemble_eq (c : Resolved) (lines : List (List Line)) :
    l.assemble c lines = ((Writer.new l.style.indent).putLines
      (l.headLines c ++ (l.parts none (c.members.zip lines)).flatMap Part.lines ++
        Line.nest (l.emptyLines c) ++ l.endLines)).text := by
  unfold assemble
  simp only [placeMembers_indent, Writer.putLines_indent, Writer.putLines_append]
  rfl

/-! ### Parts and members -/

variable {l : Layout} {previous : Option FlatMember} {m : FlatMember} {lines : List Line}
  {ms : List (FlatMember × List Line)} {before after : List Part}

theorem not_member_of_mem_separator {x : Part} (h : x ∈ l.separator previous m) :
    x.member? = none := by
  unfold separator at h
  split at h
  · rcases List.mem_append.mp h with h | h
    · split at h <;> simp_all [Part.member?]
    · obtain ⟨word, -, rfl⟩ := Option.map_eq_some_iff.mp (Option.mem_toList.mp h)
      rfl
  · split at h <;> simp_all [Part.member?]

theorem filterMap_member?_separator (l : Layout) (previous : Option FlatMember) (m : FlatMember) :
    (l.separator previous m).filterMap Part.member? = [] :=
  List.filterMap_eq_nil_iff.mpr fun _ hx => not_member_of_mem_separator hx

/-- The members are found among the parts, each once and in order. -/
theorem filterMap_member?_parts (l : Layout) (previous : Option FlatMember)
    (ms : List (FlatMember × List Line)) : (l.parts previous ms).filterMap Part.member? = ms := by
  induction ms generalizing previous with
  | nil => rfl
  | cons e ms ih =>
    obtain ⟨m, lines⟩ := e
    rw [parts, List.filterMap_append, filterMap_member?_separator, List.nil_append,
      List.filterMap_cons]
    simp only [Part.member?]
    rw [ih]

/-- The member before the rest: the last one so far, or else the one before all. -/
def lastOr (previous : Option FlatMember) (ms : List (FlatMember × List Line)) :
    Option FlatMember :=
  (ms.getLast?.map Prod.fst).or previous

theorem lastOr_cons (previous : Option FlatMember) (m : FlatMember) (lines : List Line)
    (ms : List (FlatMember × List Line)) :
    lastOr previous ((m, lines) :: ms) = lastOr (some m) ms := by
  unfold lastOr
  cases h : ms.getLast? <;> simp [List.getLast?_cons, h]

theorem parts_append (l : Layout) (previous : Option FlatMember)
    (ms ms' : List (FlatMember × List Line)) :
    l.parts previous (ms ++ ms') = l.parts previous ms ++ l.parts (lastOr previous ms) ms' := by
  induction ms generalizing previous with
  | nil => rfl
  | cons e ms ih =>
    obtain ⟨m, lines⟩ := e
    rw [List.cons_append, parts, ih, parts, lastOr_cons, List.append_assoc, List.cons_append]

/-- **Where a member stands** among the parts: behind the parts of all members before it and its own
separator. -/
theorem exists_split_of_parts (h : l.parts previous ms = before ++ .member m lines :: after) :
    ∃ front back, ms = front ++ (m, lines) :: back ∧
      before = l.parts previous front ++ l.separator (lastOr previous front) m ∧
      after = l.parts (some m) back := by
  induction ms generalizing previous before with
  | nil => simp [parts] at h
  | cons e ms ih =>
    obtain ⟨m₀, lines₀⟩ := e
    rw [parts] at h
    rcases List.append_eq_append_iff.mp h with ⟨rest, rfl, hrest⟩ | ⟨rest, hsep, hrest⟩
    · cases rest with
      | nil =>
        obtain ⟨he, rfl⟩ := List.cons.inj hrest
        obtain ⟨rfl, rfl⟩ := Part.member.inj he
        exact ⟨[], ms, rfl, List.append_nil _, rfl⟩
      | cons x rest =>
        obtain ⟨rfl, htail⟩ := List.cons.inj hrest
        obtain ⟨front, back, rfl, rfl, rfl⟩ := ih htail
        refine ⟨(m₀, lines₀) :: front, back, rfl, ?_, rfl⟩
        rw [parts, lastOr_cons, List.append_assoc, List.cons_append]
    · cases rest with
      | nil =>
        obtain ⟨he, rfl⟩ := List.cons.inj hrest
        obtain ⟨rfl, rfl⟩ := Part.member.inj he
        exact ⟨[], ms, rfl, (List.append_nil _).symm.trans hsep.symm, rfl⟩
      | cons x rest =>
        -- There is no member in a separator.
        obtain ⟨rfl, -⟩ := List.cons.inj hrest
        have hmem : Part.member m lines ∈ l.separator previous m₀ := by rw [hsep]; simp
        exact nomatch not_member_of_mem_separator hmem

theorem getLast?_parts (l : Layout) (previous : Option FlatMember)
    (ms : List (FlatMember × List Line)) :
    (l.parts previous ms).getLast? = ms.getLast?.map fun e => .member e.1 e.2 := by
  rcases List.eq_nil_or_concat ms with rfl | ⟨ms, e, rfl⟩
  · rfl
  · rw [List.concat_eq_append, parts_append, parts, parts, ← List.append_assoc]
    simp

/-! ### The text of a class -/

/-- **A class is written in the given parts**: they hold its members in order, each with its lines,
and the text is made of nothing else but the head and the end of the class. -/
structure WrittenIn (l : Layout) (c : Resolved) (parts : List Part) (text : String) : Prop where
  members : (parts.filterMap Part.member?).map Prod.fst = c.members
  lines : ∀ m lines, .member m lines ∈ parts → l.memberLines m = .ok lines
  text : text = ((Writer.new l.style.indent).putLines (l.headLines c ++
    parts.flatMap Part.lines ++ Line.nest (l.emptyLines c) ++ l.endLines)).text

theorem writtenIn_parts {c : Resolved} {lines : List (List Line)}
    (h : c.members.mapM l.memberLines = .ok lines) :
    l.WrittenIn c (l.parts none (c.members.zip lines)) (l.assemble c lines) := by
  have heach := Logged.except_mapM_ok_iff.mp h
  refine ⟨?_, fun m ls hm => ?_, l.assemble_eq c lines⟩
  · rw [filterMap_member?_parts]
    exact List.map_fst_zip (Nat.le_of_eq heach.length_eq)
  · have hmem : (m, ls) ∈ c.members.zip lines := by
      rw [← filterMap_member?_parts l none (c.members.zip lines)]
      exact List.mem_filterMap.mpr ⟨_, hm, rfl⟩
    exact List.forall₂_zip heach hmem

end Layout

end ClassIdiom
