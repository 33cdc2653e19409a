import ClassIdiom.Proofs.Logged
import ClassIdiom.Proofs.MemberWriting
import ClassIdiom.SourceFile

/-! # The text of a class

Writing a class goes from member to member and stops at the first one that cannot be laid out.
`classText_eq` takes this apart: first all members are laid out, which is all that can fail, and
then their lines are put in their places, which is `Layout.assemble`. The second part knows the
style but no types. -/

namespace ClassIdiom

namespace Layout

/-- Puts members that are laid out in their places. The first follows another member or none. -/
def placeMembers (l : Layout) :
    Option FlatMember → List (FlatMember × List Line) → Writer → Writer
  | _, [], w => w
  | previous, (m, lines) :: rest, w =>
    l.placeMembers (some m) rest ((l.separate previous m w).putLines lines)

/-- The text of a class whose members are laid out in the given lines. -/
def assemble (l : Layout) (c : Resolved) (lines : List (List Line)) : String :=
  let start := ((Writer.new l.style.indent).putLines (l.headLines c)).indent
  let w := l.placeMembers none (c.members.zip lines) start
  ((w.putLines (l.emptyLines c)).dedent.putLines l.endLines).text

variable {l l' : Layout}

/-! ### Members one after the other -/

/-- Where one member can be laid out, it is put in its place and the others follow. -/
theorem exec_emitMembers_cons (previous : Option FlatMember) (m : FlatMember)
    (ms : List FlatMember) (w : Writer) :
    (l.emitMembers previous (m :: ms)).exec w =
      match l.memberLines m with
      | .ok lines => (l.emitMembers (some m) ms).exec ((l.separate previous m w).putLines lines)
      | .error e => (.error e, l.separate previous m w) := by
  rw [emitMembers, Emit.exec_bind, Emit.exec_change]
  simp only [Emit.exec_bind, exec_emitMember]
  cases l.memberLines m <;> rfl

theorem exec_emitMembers_of_ok {ms : List FlatMember} {lines : List (List Line)}
    (h : ms.mapM l.memberLines = .ok lines) (previous : Option FlatMember) (w : Writer) :
    (l.emitMembers previous ms).exec w =
      (.ok (), l.placeMembers previous (ms.zip lines) w) := by
  induction ms generalizing lines previous w with
  | nil => rfl
  | cons m ms ih =>
    rw [List.mapM_cons] at h
    obtain ⟨first, hfirst, h⟩ := Logged.except_bind_ok_iff.mp h
    obtain ⟨rest, hrest, h⟩ := Logged.except_bind_ok_iff.mp h
    obtain rfl : first :: rest = lines := Except.ok.inj h
    rw [exec_emitMembers_cons, hfirst]
    exact ih hrest (some m) _

theorem exec_emitMembers_of_error {ms : List FlatMember} {e : Failure}
    (h : ms.mapM l.memberLines = .error e) (previous : Option FlatMember) (w : Writer) :
    ((l.emitMembers previous ms).exec w).1 = .error e := by
  induction ms generalizing previous w with
  | nil => exact nomatch h
  | cons m ms ih =>
    rw [List.mapM_cons] at h
    rw [exec_emitMembers_cons]
    rcases Logged.except_bind_error_iff.mp h with hm | ⟨first, hfirst, h⟩
    · rw [hm]
    · rw [hfirst]
      rcases Logged.except_bind_error_iff.mp h with h | ⟨rest, -, h⟩
      · exact ih h (some m) _
      · exact nomatch h

/-! ### The class -/

/-- **The text of a class** is put together from the lines of its members, once each of them can be
laid out. -/
theorem classText_eq (l : Layout) (c : Resolved) :
    l.classText c =
      (c.members.mapM { l with className := c.name }.memberLines).map
        ({ l with className := c.name }.assemble c) := by
  unfold classText emitClass Emit.text
  simp only [Emit.exec_bind, Emit.exec_change]
  cases h : c.members.mapM { l with className := c.name }.memberLines with
  | ok lines =>
    rw [exec_emitMembers_of_ok h]
    rfl
  | error e =>
    -- The members end with the failure, so nothing is written after them.
    have hfst := exec_emitMembers_of_error h none
      (((Writer.new l.style.indent).putLines (l.headLines c)).indent)
    generalize Emit.exec _ _ = outcome at hfst ⊢
    obtain ⟨result, w⟩ := outcome
    obtain rfl : result = .error e := hfst
    rfl

theorem classText_ok_iff {c : Resolved} {text : String} :
    l.classText c = .ok text ↔
      ∃ lines, c.members.mapM { l with className := c.name }.memberLines = .ok lines ∧
        text = { l with className := c.name }.assemble c lines := by
  rw [classText_eq]
  cases c.members.mapM { l with className := c.name }.memberLines with
  | error e => simp [Except.map]
  | ok lines =>
    simp only [Except.map, Except.ok.injEq, exists_eq_left']
    exact eq_comm

theorem fileText_eq (l : Layout) (c : Resolved) :
    l.fileText c =
      (c.members.mapM { l with className := c.name }.memberLines).map
        fun lines => l.style.fileText c ({ l with className := c.name }.assemble c lines) := by
  unfold fileText
  rw [classText_eq]
  cases c.members.mapM { l with className := c.name }.memberLines <;> rfl

/-! ### What the placing depends on -/

theorem separate_congr (h : l'.style = l.style) : l'.separate = l.separate := by
  funext previous m w
  unfold separate startsSection
  rw [h]

theorem placeMembers_congr (h : l'.style = l.style) (previous : Option FlatMember)
    (ms : List (FlatMember × List Line)) (w : Writer) :
    l'.placeMembers previous ms w = l.placeMembers previous ms w := by
  induction ms generalizing previous w with
  | nil => rfl
  | cons m ms ih => rw [placeMembers, placeMembers, separate_congr h, ih]

/-- Two layouts of one style put members in the same places. -/
theorem assemble_congr (h : l'.style = l.style) (c : Resolved) (lines : List (List Line)) :
    l'.assemble c lines = l.assemble c lines := by
  have hhead : l'.headLines c = l.headLines c := by
    unfold headLines heritage
    rw [h]
  have hempty : l'.emptyLines c = l.emptyLines c := by
    unfold emptyLines
    rw [h]
  have hend : l'.endLines = l.endLines := by
    unfold endLines
    rw [h]
  unfold assemble
  simp only [hhead, hempty, hend, h, placeMembers_congr h]

end Layout

end ClassIdiom
