import ClassIdiom.Proofs.FileRows

/-! # Bodies in a file

A body is a list of lines that the converter does not look into. Its way into a file leads through
the members of the class, the lines of a member, the text of the class and the lines of that text.

* `Layout.body_infix_memberLines`: the lines of a member have its body among them, in a row;
* `Member.Expands.hasBody_iff`: what stands for a declared member has the body of the member;
* `Converter.body_infix_rows`: the body of a declared member is copied into the file. -/

namespace ClassIdiom

namespace Style

theorem inner_infix_block (s : Style) (head : String) {body : List String} (h : body ≠ []) :
    inner body <:+: s.block head body := by
  unfold block
  split
  · exact List.infix_append _ _ _
  · rw [List.isEmpty_eq_false_iff.mpr h, if_neg Bool.false_ne_true]
    exact (List.suffix_append _ _).isInfix

/-- How far in a body lies within its member, which may be a static initializer. -/
def bodyDepth (s : Style) (isStaticInit : Bool) : Nat :=
  match s.staticInit with
  | .classBody => if isStaticInit then 0 else 1
  | _ => 1

theorem bodyDepth_false (s : Style) : s.bodyDepth false = 1 := by
  unfold bodyDepth
  split <;> rfl

end Style

/-- The member has a declared body. -/
def FlatMember.HasBody (x : FlatMember) (body : List String) : Prop :=
  match x with
  | .field _ => False
  | .method m => m.body = .verbatim body
  | .constructor c => c.body = body

namespace Layout

variable {l : Layout} {body : List String} {lines : List Line}

theorem body_infix_staticInitLines {c : FlatConstructor} (hne : c.body ≠ [])
    (h : l.staticInitLines c = .ok lines) :
    c.body.map (Line.mk (l.style.bodyDepth true)) <:+: lines := by
  unfold staticInitLines at h
  unfold Style.bodyDepth
  cases hinit : l.style.staticInit with
  | block keyword =>
    rw [hinit] at h
    obtain rfl := Except.ok.inj h
    exact l.style.inner_infix_block _ hne
  | classBody =>
    have hlines : Style.flush c.body = lines := by
      simp only [hinit] at h
      split at h
      · next hempty _ => exact absurd hempty hne
      · exact Except.ok.inj h
    rw [← hlines]
    exact List.infix_refl _
  | unsupported =>
    rw [hinit] at h
    exact nomatch h

/-- **A body is copied** into the lines of its member. -/
theorem body_infix_memberLines {x : FlatMember} (hx : x.HasBody body) (hne : body ≠ [])
    (h : l.memberLines x = .ok lines) :
    body.map (Line.mk (l.style.bodyDepth x.isStaticInit)) <:+: lines := by
  cases x with
  | field f => exact hx.elim
  | method m =>
    have hbody : l.bodyLines m = some body := by
      unfold bodyLines
      rw [show m.body = .verbatim body from hx]
    obtain ⟨spelling, params, -, -, rfl⟩ := methodLines_ok_iff.mp h
    unfold linesUnder
    rw [hbody, FlatMember.isStaticInit, Style.bodyDepth_false]
    exact (l.style.inner_infix_block _ hne).trans (List.suffix_append _ _).isInfix
  | constructor c =>
    obtain rfl : c.body = body := hx
    cases hstatic : c.isStatic with
    | false =>
      obtain ⟨params, -, rfl⟩ := (constructorLines_ok_iff hstatic).mp h
      rw [FlatMember.isStaticInit, hstatic, Style.bodyDepth_false]
      exact (l.style.inner_infix_block _ hne).trans (List.suffix_append _ _).isInfix
    | true =>
      rw [memberLines, constructorLines, hstatic, if_pos rfl] at h
      rw [FlatMember.isStaticInit, hstatic]
      exact body_infix_staticInitLines hne h

end Layout

namespace Member

/-- **The body of a member**: that of a method which is not abstract, or of a constructor. -/
def body? (m : Member) : Option (List String) :=
  match m.kind with
  | .method x => if m.special = some .abstract then none else some x.body
  | .constructor c => some c.body
  | _ => none

/-- The member is a static constructor. -/
def isStaticInit (m : Member) : Bool :=
  match m.kind with
  | .constructor _ => m.isStatic
  | _ => false

variable {m : Member} {p : Profile} {source : Signature → OverrideSource} {part : List FlatMember}
  {x : FlatMember} {body : List String}

/-- **What stands for a member** has the body of the member, if any. -/
theorem Expands.hasBody_iff (h : m.Expands p source part) (hx : x ∈ part) :
    x.HasBody body ↔ m.body? = some body := by
  unfold body?
  cases h with
  | field kind level =>
    obtain rfl := List.mem_singleton.mp hx
    simp [FlatMember.HasBody, kind]
  | method kind level =>
    obtain rfl := List.mem_singleton.mp hx
    by_cases hs : m.special = some .abstract <;> simp [FlatMember.HasBody, kind, hs]
  | constructor kind level =>
    obtain rfl := List.mem_singleton.mp hx
    simp [FlatMember.HasBody, kind]
  | readOnly kind getter setter =>
    rcases m.eq_storage_or_mem p.naming hx with rfl | hx
    · simp [FlatMember.HasBody, kind]
    · obtain rfl := List.mem_singleton.mp hx
      by_cases hs : m.special = some .abstract <;> simp [FlatMember.HasBody, reader, kind, hs]
  | readWrite kind getter setter level =>
    rcases m.eq_storage_or_mem p.naming hx with rfl | hx
    · simp [FlatMember.HasBody, kind]
    · by_cases hs : m.special = some .abstract <;>
        rcases List.mem_pair.mp hx with rfl | rfl <;>
          simp [FlatMember.HasBody, reader, writer, kind, hs]

theorem Expands.isStaticInit_eq (h : m.Expands p source part) (hx : x ∈ part) :
    x.isStaticInit = m.isStaticInit := by
  unfold isStaticInit
  cases h with
  | field kind level | method kind level | constructor kind level =>
    obtain rfl := List.mem_singleton.mp hx
    rw [kind]
    rfl
  | readOnly kind getter setter =>
    rcases m.eq_storage_or_mem p.naming hx with rfl | hx
    · rw [kind]; rfl
    · obtain rfl := List.mem_singleton.mp hx
      rw [kind]; rfl
  | readWrite kind getter setter level =>
    rcases m.eq_storage_or_mem p.naming hx with rfl | hx
    · rw [kind]; rfl
    · rcases List.mem_pair.mp hx with rfl | rfl <;> (rw [kind]; rfl)

end Member

/-- A line of a body in a file, the given number of levels in. -/
def Text.copied (unit : String) (depth : Nat) (line : String) : String :=
  if line = "" then "" else Writer.indentation unit depth ++ Text.chomp line

/-- The lines of a body, as they are written. -/
theorem Writer.lines_linesText_body {unit : String} (hu : '\n' ∉ unit.toList) (depth : Nat)
    {body : List String} (h : ∀ line ∈ body, '\n' ∉ line.toList) :
    Text.lines (linesText unit 0 (body.map (Line.mk depth))) =
      body.map (Text.copied unit depth) := by
  have hchomp (line : String) :
      Text.chomp (row unit ⟨depth, line⟩) = Text.copied unit depth line := by
    unfold row Text.copied
    split
    · rfl
    · next hline => exact Text.chomp_append hline
  rw [lines_linesText hu (by simpa using h), List.map_map]
  exact List.map_congr_left fun line _ => hchomp line

/-- How far in the body of a member lies in a file of the target. A static initializer is a part of
the body of the class in Python. -/
def Member.bodyLevel (m : Member) (target : Target) : Nat :=
  if target = .python ∧ m.isStaticInit then 1 else 2

theorem Style.bodyDepth_builtIn (target : Target) (m : Member) :
    (Profile.builtIn target).style.bodyDepth m.isStaticInit + 1 = m.bodyLevel target := by
  unfold Member.bodyLevel
  cases target with
  | java => rfl
  | cpp => rfl
  | python => cases m.isStaticInit <;> rfl

theorem Profile.not_mem_indent_builtIn (target : Target) :
    '\n' ∉ (Profile.builtIn target).style.indent.toList := by
  cases target <;> decide

/-- **Bodies are copied**: the lines of a body that have no line feed within them stand in the file
one after the other. -/
theorem Converter.body_infix_rows {t : Converter} {target : Target}
    (hp : t.profile = .builtIn target) {d : Decl} {file : SourceFile}
    (h : (t.convert d).result = .ok file) {m : Member} (hm : m ∈ d.members) {body : List String}
    (hb : m.body? = some body) (hne : body ≠ []) (hfeed : ∀ line ∈ body, '\n' ∉ line.toList) :
    body.map (Text.copied t.profile.style.indent (m.bodyLevel target)) <:+:
      Text.rows file.text := by
  obtain ⟨_, _, c, hpass, hemit⟩ := convert_ok_iff.mp h
  obtain ⟨x, hx, part, hexp, hpart⟩ := hpass.exists_mem_of_declared hm
  have hbody : x.HasBody body := (hexp.hasBody_iff hpart).mpr hb
  have hdepth : t.profile.style.bodyDepth x.isStaticInit + 1 = m.bodyLevel target := by
    rw [hp, hexp.isStaticInit_eq hpart, Style.bodyDepth_builtIn]
  have hnest : Line.nest (body.map (Line.mk (t.profile.style.bodyDepth x.isStaticInit))) =
      body.map (Line.mk (m.bodyLevel target)) := by
    rw [← hdepth, Line.nest, List.map_map]
    rfl
  obtain ⟨lines, hlines, rfl⟩ := emit_ok_iff.mp hemit
  obtain ⟨ls, hls, hclass⟩ := Layout.nest_infix_linesBelow hlines hx
  have hcopy := ((Layout.body_infix_memberLines hbody hne hls).map _).trans hclass
  rw [← Writer.lines_linesText_body (hp ▸ Profile.not_mem_indent_builtIn target) _ hfeed, ← hnest]
  have hkeeps : (t.layout c).style.KeepsLevel := by
    rw [show (t.layout c).style = t.profile.style from rfl, hp]
    exact Style.keepsLevel_builtIn target
  exact Layout.lines_infix_rows_of_infix hkeeps hcopy

/-- A method that switches something on, with a line that looks like a label. -/
def switchMethod : Member where
  name := "Switch"
  visibility := .pub
  kind := .method { body := ["if (on) \x7b", "", "private:\r", "\x7d"] }

/-- What a class does when it is loaded. -/
def startUp : Member where
  name := "Lamp"
  isStatic := true
  kind := .constructor { body := ["  count = 0", "\r"] }

/-- A class in a container, with an import. -/
def lampDecl (m : Member) : Decl where
  name := "Lamp"
  container := some "home.light"
  imports := ["home.power"]
  members := [{ name := "on", kind := .field { type := "bool" } }, m]

theorem Converter.body_infix_rows_lamp :
    (∃ file, (plainCpp.convert (lampDecl switchMethod)).result = .ok file ∧
      ["        if (on) \x7b", "", "        private:", "        \x7d"] <:+: Text.rows file.text) ∧
    ∃ file, (plainPython.convert (lampDecl startUp)).result = .ok file ∧
      ["      count = 0", "    "] <:+: Text.rows file.text := by
  have hcpp : plainCpp.profile = .builtIn .cpp := rfl
  have hpython : plainPython.profile = .builtIn .python := rfl
  have hmem (m : Member) : m ∈ (lampDecl m).members := by simp [lampDecl]
  exact ⟨⟨_, rfl, body_infix_rows hcpp rfl (hmem switchMethod) rfl nofun (by decide)⟩,
    _, rfl, body_infix_rows hpython rfl (hmem startUp) rfl nofun (by decide)⟩

end ClassIdiom
