import ClassIdiom.Proofs.Bodies
import ClassIdiom.Proofs.Spelling

/-! # Blocks in Python

Where blocks are told by indentation, a block with no line in it would be none at all, so a
placeholder is written for it. Whether it is written depends on the number of lines: lines of a
declared body are copied even if nothing can be seen of them. So these bodies, and no others, leave a
block without a visible line; the body of a class is left without one if it is made up of them.

* `Text.visible_iff`: something can be seen of a text if it has a character that is not blank;
* `Layout.exists_blockOf`: each member that is no field has a block, which is its body or filled;
* `Layout.allBlank_linesBelow_iff`: when the body of a class is blank;
* `Converter.python_blocks_visible`: which blocks of a Python file have a visible line. -/

namespace ClassIdiom

/-! ### Blank texts -/

namespace Text

/-- **Something can be seen** of the text: a line has a character that is not blank. -/
def Visible (s : String) : Prop := ∃ line ∈ Text.lines s, ¬ AllBlank line

/-- There are lines, but nothing can be seen of them. -/
def BlankLines (lines : List String) : Prop := lines ≠ [] ∧ ∀ line ∈ lines, AllBlank line

instance {lines : List String} : Decidable (BlankLines lines) := inferInstanceAs (Decidable (_ ∧ _))

theorem allBlank_append {a b : String} : AllBlank (a ++ b) ↔ AllBlank a ∧ AllBlank b := by
  simp only [AllBlank, String.toList_append, List.forall_mem_append]

theorem allBlank_join {pieces : List String} :
    AllBlank (String.join pieces) ↔ ∀ s ∈ pieces, AllBlank s := by
  induction pieces with
  | nil => simp [AllBlank]
  | cons s pieces ih => rw [String.join_cons, allBlank_append, ih, List.forall_mem_cons]

theorem allBlank_linesOf {cs : List Char} :
    (∀ line ∈ linesOf cs, ∀ c ∈ line, isBlank c = true) ↔ ∀ c ∈ cs, isBlank c = true := by
  have hfeed : isBlank '\n' = true := by decide
  have hreturn : isBlank '\r' = true := by decide
  fun_induction linesOf cs with
  | case1 => simp
  | case2 cs ih => simp [ih, hfeed]
  | case3 cs ih => simp [ih, hfeed, hreturn]
  | case4 c cs _ _ hlines ih =>
    obtain rfl := linesOf_eq_nil_iff.mp hlines
    simp
  | case5 c cs _ _ l ls hlines ih =>
    rw [hlines, List.forall_mem_cons] at ih
    rw [List.forall_mem_cons, List.forall_mem_cons, List.forall_mem_cons, and_assoc]
    exact and_congr_right fun _ => ih

theorem visible_iff {s : String} : Visible s ↔ ¬ AllBlank s := by
  have hlines : (∀ line ∈ Text.lines s, AllBlank line) ↔ AllBlank s := by
    unfold AllBlank
    rw [← allBlank_linesOf]
    simp [Text.lines]
  rw [← hlines]
  simp [Visible]

end Text

namespace Writer

variable {unit : String}

theorem allBlank_written (hu : Text.AllBlank unit) (level : Nat) (l : Line) :
    Text.AllBlank (written unit level l) ↔ Text.AllBlank l.text := by
  have hindentation (n : Nat) : Text.AllBlank (indentation unit n) :=
    Text.allBlank_join.mpr fun s hs => List.eq_of_mem_replicate hs ▸ hu
  have hend : Text.AllBlank "\n" := by decide
  unfold written
  split
  · next h => simp only [h, Text.allBlank_append, hend, and_true]
  · simp only [Text.allBlank_append, hindentation, hend, true_and, and_true]

theorem allBlank_linesText (hu : Text.AllBlank unit) {level : Nat} {lines : List Line} :
    Text.AllBlank (linesText unit level lines) ↔ ∀ l ∈ lines, Text.AllBlank l.text := by
  unfold linesText
  simp only [Text.allBlank_join, List.forall_mem_map, allBlank_written hu]

end Writer

/-! ### Blocks by indentation -/

namespace Style

/-- **Blocks are told by indentation**: one without lines is filled, and a static initializer is
written into the body of the class. -/
structure Indents (s : Style) (placeholder : String) : Prop where
  blocks : s.blocks = .indented placeholder
  staticInit : s.staticInit = .classBody
  order : s.order = .nameFirst
  access : s.access = .implicit
  container : s.preamble.container = .omitted
  indent : Text.AllBlank s.indent
  visible : ¬ Text.AllBlank placeholder

theorem indents_python : Profile.python.style.Indents "pass" where
  blocks := rfl
  staticInit := rfl
  order := rfl
  access := rfl
  container := rfl
  indent := by decide
  visible := by decide

/-- The lines of a block. -/
def filled (placeholder : String) (body : List String) : List String :=
  if body.isEmpty then [placeholder] else body

theorem allBlank_filled {placeholder : String} (h : ¬ Text.AllBlank placeholder)
    {body : List String} :
    (∀ line ∈ filled placeholder body, Text.AllBlank line) ↔ Text.BlankLines body := by
  unfold filled Text.BlankLines
  cases body with
  | nil => simp [h]
  | cons line body => simp

end Style

/-- **The block of a member** among its lines. It stands one level in, under a heading that ends
with a colon. A static initializer has no heading and is a block alone. -/
inductive BlockOf : Bool → List Line → List Line → Prop where
  | under (above : List String) (head : String) (block : List String) :
    BlockOf false (Style.flush (above ++ [head ++ ":"]) ++ Style.inner block) (Style.inner block)
  | alone (block : List String) : BlockOf true (Style.flush block) (Style.flush block)

/-- The declared body of the member has lines, but nothing can be seen of them. -/
def FlatMember.HasBlankBody (x : FlatMember) : Prop :=
  ∃ body, x.HasBody body ∧ Text.BlankLines body

namespace Layout

variable {l : Layout} {placeholder : String} {x : FlatMember} {lines : List Line}

/-- The statements in the block of a member. -/
def statements (l : Layout) : FlatMember → List String
  | .field _ => []
  | .method m => (l.bodyLines m).getD []
  | .constructor c => c.body

/-- What is written for a method on its own account can be seen. -/
theorem not_blankLines_bodyLines {m : FlatMethod} (hm : ∀ body, m.body ≠ .verbatim body) :
    ¬ Text.BlankLines ((l.bodyLines m).getD []) := by
  have hreturn : ¬ Text.AllBlank "return " := by decide
  have hequals : ¬ Text.AllBlank " = " := by decide
  unfold bodyLines
  split
  · next body hbody => exact absurd hbody (hm body)
  · simp [Text.BlankLines, Text.allBlank_append, hreturn]
  · simp [Text.BlankLines, Text.allBlank_append, hequals]
  · split <;> exact fun h => h.1 rfl

theorem blankLines_statements_iff (l : Layout) (x : FlatMember) :
    Text.BlankLines (l.statements x) ↔ x.HasBlankBody := by
  unfold FlatMember.HasBlankBody FlatMember.HasBody
  cases x with
  | field f => simp [statements, Text.BlankLines]
  | constructor c => simp [statements]
  | method m =>
    by_cases hm : ∃ body, m.body = .verbatim body
    · obtain ⟨body, hbody⟩ := hm
      simp [statements, bodyLines, hbody]
    · have hblank := l.not_blankLines_bodyLines (not_exists.mp hm)
      exact iff_of_false hblank fun ⟨body, hbody, _⟩ => hm ⟨body, hbody⟩

/-- The statements of a declared body are its lines. -/
theorem statements_of_hasBody (l : Layout) {body : List String} (h : x.HasBody body) :
    l.statements x = body := by
  cases x with
  | field f => exact h.elim
  | constructor c => exact h
  | method m =>
    have hbody : m.body = .verbatim body := h
    simp [statements, bodyLines, hbody]

theorem exists_bodyLines (hs : l.style.Indents placeholder) (m : FlatMethod) :
    ∃ body, l.bodyLines m = some body := by
  unfold bodyLines
  rw [hs.blocks]
  split <;> exact ⟨_, rfl⟩

theorem staticInitLines_eq (hs : l.style.Indents placeholder) (c : FlatConstructor) :
    l.staticInitLines c = .ok (Style.flush (Style.filled placeholder c.body)) := by
  unfold staticInitLines
  rw [hs.staticInit, hs.blocks]
  cases c.body <;> rfl

/-- **A member that is no field** has a block, with its statements in it. -/
theorem exists_blockOf (hs : l.style.Indents placeholder) (hx : x.isField = false)
    (h : l.memberLines x = .ok lines) :
    ∃ block, BlockOf x.isStaticInit lines block ∧
      block.map Line.text = Style.filled placeholder (l.statements x) := by
  have htexts (depth : Nat) (texts : List String) :
      (texts.map (Line.mk depth)).map Line.text = texts := by
    rw [List.map_map]
    exact List.map_id texts
  have hblock (above : List String) (head : String) (body : List String) :
      BlockOf false (Style.flush above ++ l.style.block head body)
        (Style.inner (Style.filled placeholder body)) := by
    have hunder := BlockOf.under above head (Style.filled placeholder body)
    rw [Style.flush, List.map_append, List.append_assoc] at hunder
    rw [Style.block, hs.blocks]
    exact hunder
  cases x with
  | field f => exact absurd hx.symm Bool.false_ne_true
  | method m =>
    obtain ⟨spelling, params, -, -, rfl⟩ := methodLines_ok_iff.mp h
    obtain ⟨body, hbody⟩ := exists_bodyLines hs m
    have hstatements : l.statements (.method m) = body := by rw [statements, hbody, Option.getD_some]
    unfold linesUnder
    rw [hbody, hstatements]
    exact ⟨_, hblock _ _ body, htexts 1 _⟩
  | constructor c =>
    cases hstatic : c.isStatic with
    | false =>
      obtain ⟨params, -, rfl⟩ := (constructorLines_ok_iff hstatic).mp h
      rw [FlatMember.isStaticInit, hstatic]
      exact ⟨_, hblock _ _ c.body, htexts 1 _⟩
    | true =>
      rw [memberLines, constructorLines, hstatic, if_pos rfl, staticInitLines_eq hs] at h
      obtain rfl := Except.ok.inj h
      rw [FlatMember.isStaticInit, hstatic]
      exact ⟨_, BlockOf.alone _, htexts 0 _⟩

/-- The block of a member is blank if its declared body is. -/
theorem allBlank_block_iff (hs : l.style.Indents placeholder) {block : List Line}
    (h : block.map Line.text = Style.filled placeholder (l.statements x)) :
    (∀ line ∈ block, Text.AllBlank line.text) ↔ x.HasBlankBody := by
  rw [← l.blankLines_statements_iff, ← Style.allBlank_filled hs.visible, ← h, List.forall_mem_map]

theorem not_allBlank_fieldText (hs : l.style.Indents placeholder) (f : FlatField)
    (spelling : String) : ¬ Text.AllBlank (l.fieldText f spelling) := by
  have hcolon : ¬ Text.AllBlank ": " := by decide
  unfold fieldText Style.typed
  simp only [hs.order, Text.allBlank_append, hcolon]
  simp

/-- **All lines of a member are blank** only if it is a static initializer with a blank body. -/
theorem allBlank_memberLines_iff (hs : l.style.Indents placeholder)
    (h : l.memberLines x = .ok lines) :
    (∀ line ∈ lines, Text.AllBlank line.text) ↔ x.isStaticInit = true ∧ x.HasBlankBody := by
  cases hx : x.isField with
  | true =>
    obtain ⟨f, rfl⟩ : ∃ f, x = .field f := by
      cases x <;> simp_all [FlatMember.isField]
    obtain ⟨spelling, -, rfl⟩ := fieldLines_ok_iff.mp h
    simp [Style.flush, not_allBlank_fieldText hs, FlatMember.isStaticInit]
  | false =>
    obtain ⟨block, hblock, htexts⟩ := exists_blockOf hs hx h
    have hblank := allBlank_block_iff hs htexts
    generalize x.isStaticInit = isInit at hblock ⊢
    cases hblock with
    | under above head block =>
      refine iff_of_false (fun hall => ?_) fun hinit => Bool.false_ne_true hinit.1
      have hhead := hall ⟨0, head ++ ":"⟩ (by simp [Style.flush])
      exact absurd (Text.allBlank_append.mp hhead).2 (by decide)
    | alone block => simpa using hblank

/-! ### The body of a class -/

theorem allBlank_joined {s : Style} (hs : s.access = .implicit) (previous : Option FlatMember)
    (ms : List (FlatMember × String)) :
    Text.AllBlank (s.joined previous ms) ↔ ∀ e ∈ ms, Text.AllBlank e.2 := by
  have hseparation (previous : Option FlatMember) (m : FlatMember) :
      Text.AllBlank (s.separation previous m) := by
    have hno : s.access ≠ .sections := hs ▸ nofun
    cases previous with
    | none =>
      rw [Style.separation, if_neg hno]
      decide
    | some p =>
      rw [Style.separation, if_neg fun h => hno h.1]
      split <;> decide
  induction ms generalizing previous with
  | nil => simp [Style.joined, Text.AllBlank]
  | cons e ms ih =>
    obtain ⟨m, text⟩ := e
    rw [Style.joined, Text.allBlank_append, Text.allBlank_append, List.forall_mem_cons]
    exact and_congr (and_iff_right (hseparation previous m)) (ih (some m))

theorem allBlank_ends_iff (hs : l.style.Indents placeholder) (c : Resolved) :
    (∀ line ∈ Line.nest (l.emptyLines c) ++ l.endLines, Text.AllBlank line.text) ↔
      c.members ≠ [] := by
  unfold emptyLines endLines
  rw [hs.blocks]
  cases c.members with
  | nil => simp [Line.nest, Style.flush, hs.visible]
  | cons x members => simp [Line.nest]

theorem allBlank_members_iff (hs : l.style.Indents placeholder) {members : List FlatMember}
    {lines : List (List Line)} (h : members.mapM l.memberLines = .ok lines) :
    (∀ e ∈ members.zip (lines.map (Writer.linesText l.style.indent 1)), Text.AllBlank e.2) ↔
      ∀ x ∈ members, x.isStaticInit = true ∧ x.HasBlankBody := by
  have heach := Logged.except_mapM_ok_iff.mp h
  clear h
  induction heach with
  | nil => simp
  | cons hx _ ih =>
    rw [List.map_cons, List.zip_cons_cons, List.forall_mem_cons, List.forall_mem_cons,
      Writer.allBlank_linesText hs.indent, allBlank_memberLines_iff hs hx]
    exact and_congr_right fun _ => ih

/-- **The body of a class is blank** only if there are members, all of which are static initializers
with a blank body. -/
theorem allBlank_linesBelow_iff (hs : l.style.Indents placeholder) {c : Resolved}
    {lines : List (List Line)} (h : c.members.mapM l.memberLines = .ok lines) :
    Text.AllBlank (Writer.linesText l.style.indent 0 (l.linesBelow c lines)) ↔
      c.members ≠ [] ∧ ∀ x ∈ c.members, x.isStaticInit = true ∧ x.HasBlankBody := by
  rw [linesBelow, Writer.linesText_append, Text.allBlank_append, linesText_parts,
    allBlank_joined hs.access, allBlank_members_iff hs h, Writer.allBlank_linesText hs.indent,
    allBlank_ends_iff hs, and_comm]

/-- **The body of a class in its file**: what stands below the heading of the class. -/
structure BodyIn (l : Layout) (c : Resolved) (file body : String) : Prop where
  classText : l.classText c = .ok (l.headText c ++ body)
  file : file = l.style.preambleText c (l.headText c ++ body) ++
    Text.unlines (Text.lines (l.headText c) ++ Text.lines body)

theorem bodyIn_linesBelow (hs : l.style.Indents placeholder) {c : Resolved}
    (hname : l.className = c.name) {lines : List (List Line)}
    (h : c.members.mapM l.memberLines = .ok lines) :
    l.BodyIn c (l.style.fileText c (l.assemble c lines))
      (Writer.linesText l.style.indent 0 (l.linesBelow c lines)) := by
  have hl : { l with className := c.name } = l := by rw [← hname]
  have hcontained (text : String) :
      l.style.containedText c.container text = Text.unlines (Text.lines text) := by
    rw [Style.containedText, Writer.text_putLines_new, ← Writer.linesText_flush l.style.indent]
    unfold Style.containedLines
    rw [hs.container]
    cases c.container <;> rfl
  rw [assemble_eq_append]
  refine ⟨?_, ?_⟩
  · rw [classText_eq, hl, h, ← assemble_eq_append]
    rfl
  · rw [Style.fileText_eq_append, hcontained, Text.lines_append (l.complete_headText c)]

end Layout

namespace Member

/-- **The body of the member is blank**: it has lines, but nothing can be seen of them. -/
def HasBlankBody (m : Member) : Prop := ∃ body ∈ m.body?, Text.BlankLines body

instance {m : Member} : Decidable m.HasBlankBody :=
  inferInstanceAs (Decidable (∃ body ∈ m.body?, Text.BlankLines body))

theorem Expands.hasBlankBody_iff {m : Member} {p : Profile} {source : Signature → OverrideSource}
    {part : List FlatMember} {x : FlatMember} (h : m.Expands p source part) (hx : x ∈ part) :
    x.HasBlankBody ↔ m.HasBlankBody :=
  exists_congr fun _ => and_congr_left fun _ => h.hasBody_iff hx

end Member

namespace Converter

variable {t : Converter} {d : Decl} {c : Resolved} {file : SourceFile}

namespace Passes

variable {m : Mapped} {f : Flat}

theorem members_eq_nil_iff (h : t.Passes d m f c) : c.members = [] ↔ d.members = [] := by
  rw [List.eq_nil_iff_forall_not_mem, List.eq_nil_iff_forall_not_mem]
  constructor
  · intro hnone y hy
    obtain ⟨x, hx, -⟩ := h.exists_mem_of_declared hy
    exact hnone x hx
  · intro hnone x hx
    obtain ⟨y, hy, -⟩ := h.exists_expands_of_mem hx
    exact hnone y hy

/-- The members of a class are blank initializers if the declared ones are. -/
theorem forall_blank_iff (h : t.Passes d m f c) :
    (∀ x ∈ c.members, x.isStaticInit = true ∧ x.HasBlankBody) ↔
      ∀ y ∈ d.members, y.isStaticInit = true ∧ y.HasBlankBody := by
  constructor
  · intro hall y hy
    obtain ⟨x, hx, part, hexp, hpart⟩ := h.exists_mem_of_declared hy
    rw [← hexp.isStaticInit_eq hpart, ← hexp.hasBlankBody_iff hpart]
    exact hall x hx
  · intro hall x hx
    obtain ⟨y, hy, part, hexp, hpart⟩ := h.exists_expands_of_mem hx
    rw [hexp.isStaticInit_eq hpart, hexp.hasBlankBody_iff hpart]
    exact hall y hy

end Passes

/-- **Blocks in Python**: the body of a class has a visible line unless it has members and each of
them is a static constructor with a blank body; the block of a method or a constructor has one unless
the declared body is blank. A declared body is copied into its block as it is, blank or not, unless
it has no lines. -/
theorem python_blocks_visible (hp : t.profile = .python) (hc : t.Reaches d (.resolved c))
    (h : (t.convert d).result = .ok file) :
    ∃ body, (t.layout c).BodyIn c file.text body ∧
      (Text.Visible body ↔
        ¬ (d.members ≠ [] ∧ ∀ m ∈ d.members, m.isStaticInit = true ∧ m.HasBlankBody)) ∧
      ∀ x ∈ c.members, x.isField = false →
        ∃ m ∈ d.members, ∃ part, m.Expands t.profile (t.source d) part ∧ x ∈ part ∧
          ∃ lines block, (t.layout c).memberLines x = .ok lines ∧
            BlockOf x.isStaticInit lines block ∧
            Text.lines (Writer.linesText t.profile.style.indent 1 lines) <:+: Text.lines body ∧
            (Text.Visible (Writer.linesText t.profile.style.indent 1 block) ↔
              ¬ m.HasBlankBody) ∧
            ∀ statements ∈ m.body?, block.map Line.text = Style.filled "pass" statements := by
  have hs : t.profile.style.Indents "pass" := hp ▸ Style.indents_python
  obtain ⟨m, f, hpass⟩ := hc.attained
  obtain ⟨lines, hlines, rfl⟩ := emit_ok_iff.mp (hc.emit_of_convert h)
  refine ⟨_, Layout.bodyIn_linesBelow (l := t.layout c) hs rfl hlines, ?_, fun x hx hfield => ?_⟩
  · rw [Text.visible_iff, Layout.allBlank_linesBelow_iff (l := t.layout c) hs hlines]
    exact not_congr (and_congr (not_congr hpass.members_eq_nil_iff) hpass.forall_blank_iff)
  · obtain ⟨y, hy, part, hexp, hpart⟩ := hpass.exists_expands_of_mem hx
    obtain ⟨ls, hls, hbelow⟩ := Layout.nest_infix_linesBelow hlines hx
    obtain ⟨block, hblock, htexts⟩ := Layout.exists_blockOf (l := t.layout c) hs hfield hls
    refine ⟨y, hy, part, hexp, hpart, ls, block, hls, hblock, ?_, ?_, fun statements hy => ?_⟩
    · have hinfix := Writer.lines_linesText_infix (t.layout c).style.indent hbelow
      rw [Layout.linesText_nest] at hinfix
      exact hinfix
    · rw [Text.visible_iff, Writer.allBlank_linesText hs.indent,
        Layout.allBlank_block_iff (l := t.layout c) hs htexts, hexp.hasBlankBody_iff hpart]
    · rw [htexts, (t.layout c).statements_of_hasBody ((hexp.hasBody_iff hpart).mpr hy)]

/-- A class whose only member is a method with the given lines. -/
def offDecl (body : List String) : Decl where
  name := "Lamp"
  members := [{ name := "Off", kind := .method { body } }]

/-- A class whose only member is a static constructor with the given lines. -/
def initDecl (body : List String) : Decl where
  name := "Lamp"
  members := [{ name := "Lamp", isStatic := true, kind := .constructor { body } }]

theorem python_blocks_visible_lamp :
    (∃ c file body, plainPython.Reaches (offDecl []) (.resolved c) ∧
      (plainPython.convert (offDecl [])).result = .ok file ∧
      (plainPython.layout c).BodyIn c file.text body ∧ Text.Visible body ∧
      ∃ x ∈ c.members, x.isField = false ∧ ∃ lines block,
        (plainPython.layout c).memberLines x = .ok lines ∧ BlockOf x.isStaticInit lines block ∧
        Text.lines (Writer.linesText "    " 1 lines) <:+: Text.lines body ∧
        Text.Visible (Writer.linesText "    " 1 block) ∧ block.map Line.text = ["pass"]) ∧
    ∃ c x, plainPython.Reaches (offDecl ["", "  "]) (.resolved c) ∧ x ∈ c.members ∧
      ∃ lines block, (plainPython.layout c).memberLines x = .ok lines ∧
        BlockOf x.isStaticInit lines block ∧ ¬ Text.Visible (Writer.linesText "    " 1 block) ∧
        block.map Line.text = ["", "  "] := by
  refine ⟨?_, ?_⟩
  · have hreaches : plainPython.Reaches (offDecl []) (.resolved _) :=
      .step (.step (.step .start rfl) rfl) rfl
    obtain ⟨body, hbody, hvisible, hblocks⟩ := python_blocks_visible rfl hreaches rfl
    obtain ⟨m, hm, part, -, -, lines, block, hlines, hblock, hinfix, hseen, hcopied⟩ :=
      hblocks _ List.mem_cons_self rfl
    obtain rfl := List.mem_singleton.mp hm
    have hclass : ¬ ((offDecl []).members ≠ [] ∧
        ∀ m ∈ (offDecl []).members, m.isStaticInit = true ∧ m.HasBlankBody) := by decide
    exact ⟨_, _, body, hreaches, rfl, hbody, hvisible.mpr hclass, _, List.mem_cons_self, rfl, lines,
      block, hlines, hblock, hinfix, hseen.mpr (by decide), hcopied [] rfl⟩
  · have hreaches : plainPython.Reaches (offDecl ["", "  "]) (.resolved _) :=
      .step (.step (.step .start rfl) rfl) rfl
    obtain ⟨body, -, -, hblocks⟩ := python_blocks_visible rfl hreaches rfl
    obtain ⟨m, hm, part, -, -, lines, block, hlines, hblock, -, hseen, hcopied⟩ :=
      hblocks _ List.mem_cons_self rfl
    obtain rfl := List.mem_singleton.mp hm
    exact ⟨_, _, hreaches, List.mem_cons_self, lines, block, hlines, hblock,
      fun hv => hseen.mp hv (by decide), hcopied ["", "  "] rfl⟩

/-- The file of the class of a lamp whose body has the given text. -/
def lampFile (body : String) : SourceFile where
  name := "Lamp"
  stem := "Lamp"
  extension := "py"
  text := "from dataclasses import dataclass\n\n@dataclass\nclass Lamp:\n" ++ body

/-- **A block can be without a visible line**, and so can the body of a class: the placeholder is not
written for lines that are blank. -/
theorem python_block_can_be_blank :
    (∃ c x block, plainPython.Reaches (offDecl [""]) (.resolved c) ∧
      (plainPython.convert (offDecl [""])).result =
        .ok (lampFile "    def off(self) -> None:\n\n") ∧
      c.members = [x] ∧ x.isField = false ∧ (plainPython.layout c).memberLines x =
        .ok (Style.flush ["def off(self) -> None" ++ ":"] ++ block) ∧
      BlockOf x.isStaticInit (Style.flush ["def off(self) -> None" ++ ":"] ++ block) block ∧
      ¬ Text.Visible (Writer.linesText "    " 1 block)) ∧
    ∃ c body, plainPython.Reaches (initDecl ["  "]) (.resolved c) ∧
      (plainPython.convert (initDecl ["  "])).result = .ok (lampFile body) ∧
      (plainPython.layout c).BodyIn c (lampFile body).text body ∧ ¬ Text.Visible body := by
  have hoff : plainPython.Reaches (offDecl [""]) (.resolved _) :=
    .step (.step (.step .start rfl) rfl) rfl
  have hinit : plainPython.Reaches (initDecl ["  "]) (.resolved _) :=
    .step (.step (.step .start rfl) rfl) rfl
  have hblock : ¬ Text.Visible "\n" := by
    rw [Text.visible_iff]
    decide
  have hbody : ¬ Text.Visible "      \n" := by
    rw [Text.visible_iff]
    decide
  refine ⟨⟨_, _, Style.inner [""], hoff, by decide +kernel, rfl, rfl, by decide +kernel,
    BlockOf.under [] _ _, hblock⟩, _, "      \n", hinit, by decide +kernel, ⟨?_, ?_⟩, hbody⟩
  · decide +kernel
  · decide +kernel

end Converter

end ClassIdiom
