import Mathlib.Data.List.Induction
import ClassIdiom.Proofs.ClassParts
import ClassIdiom.Proofs.Converted
import ClassIdiom.Proofs.Overlays

/-! # Sections of a class

Where access levels are written as labels, a member has the level of the last label before it. A
label is written whenever the level changes, unless the level has no keyword: a member of package
level would silently come under the label before it. `Part.Sectioned` says of the parts of a class
that this does not happen.

* `Layout.sectioned_parts`: the parts of a class are sectioned if no member has package level;
* `Converter.Passes.access_ne_package`: no member has it, if the profile can write its levels;
* `sections_faithful`: so in C++, under every overlay, labels tell the levels of members. -/

namespace ClassIdiom

/-! ### Levels of members -/

/-- A member has the level of some visibility, or it is a backing field. -/
theorem Member.Expands.access_eq {p : Profile} {source : Signature → OverrideSource} {m : Member}
    {part : List FlatMember} (h : m.Expands p source part) {x : FlatMember} (hx : x ∈ part) :
    x.access = .priv ∨ ∃ v, p.access? v = some x.access := by
  cases h with
  | field _ level | method _ level | constructor _ level =>
    rw [List.mem_singleton.mp hx]
    exact .inr ⟨_, level⟩
  | readOnly _ getter _ =>
    rcases eq_storage_or_mem _ _ hx with rfl | hx
    · exact .inl rfl
    · rw [List.mem_singleton.mp hx]
      exact .inr ⟨_, getter⟩
  | readWrite _ getter _ level =>
    rcases eq_storage_or_mem _ _ hx with rfl | hx
    · exact .inl rfl
    · simp only [List.mem_cons, List.not_mem_nil, or_false] at hx
      rcases hx with rfl | rfl
      · exact .inr ⟨_, getter⟩
      · exact .inr ⟨_, level⟩

theorem Converter.Passes.access_ne_package {t : Converter} {d : Decl} {m : Mapped} {f : Flat}
    {c : Resolved} (h : t.Passes d m f c) (hp : t.profile.Writable)
    (hstyle : t.profile.style.access ≠ .keyword) : ∀ x ∈ c.members, x.access ≠ .package := by
  intro x hx
  obtain ⟨y, -, part, hpart, hx⟩ := h.exists_expands_of_mem hx
  rcases hpart.access_eq hx with hpriv | ⟨v, hv⟩
  · rw [hpriv]
    decide
  · intro hpackage
    exact hp hstyle v (hpackage ▸ hv)

theorem Access.keyword?_of_ne_package {a : Access} (h : a ≠ .package) :
    a.keyword? = some a.name := by
  cases a with
  | package => exact absurd rfl h
  | pub | prot | priv => rfl

/-! ### Labels -/

/-- **The labels among the parts are faithful**: one stands right before a member exactly if it is
the first or the member before it has another level, with the keyword of its level; the last label
before a member is that keyword; and no label stands elsewhere. -/
structure Part.Sectioned (parts : List Part) : Prop where
  label_iff : ∀ before m lines after, parts = before ++ .member m lines :: after → ∀ word,
    before.getLast? = some (.label word) ↔
      (before.filterMap member?).getLast?.map (·.1.access) ≠ some m.access ∧
        m.access.keyword? = some word
  last_label : ∀ before m lines after, parts = before ++ .member m lines :: after →
    (before.filterMap label?).getLast? = m.access.keyword? ∧ m.access.keyword?.isSome
  member_after : ∀ before word after, parts = before ++ .label word :: after →
    ∃ m lines rest, after = .member m lines :: rest

namespace Layout

variable {l : Layout} {previous : Option FlatMember} {m : FlatMember}
  {ms : List (FlatMember × List Line)}

theorem startsSection_iff (hl : l.style.access = .sections) :
    l.startsSection previous m = true ↔ previous.map (·.access) ≠ some m.access := by
  unfold startsSection
  rw [hl]
  simp

theorem separator_of_starts (h : l.startsSection previous m = true) {word : String}
    (hm : m.access.keyword? = some word) :
    l.separator previous m = (if previous.isSome then [.gap] else []) ++ [.label word] := by
  unfold separator
  rw [if_pos h, hm]
  rfl

theorem separator_of_not_starts (h : l.startsSection previous m = false) :
    l.separator previous m = [] ∨ l.separator previous m = [.gap] := by
  unfold separator
  rw [h]
  simp only [Bool.false_eq_true, if_false]
  split
  · exact .inr rfl
  · exact .inl rfl

theorem not_starts_iff (hl : l.style.access = .sections) :
    l.startsSection previous m = false ↔ previous.map (·.access) = some m.access := by
  rw [← Bool.not_eq_true, startsSection_iff hl, ne_eq, not_not]

/-- If the last label so far is that of the last member, then the separator of the next one makes
it that of the next. -/
theorem getLast?_labels_separator (hl : l.style.access = .sections) (hm : m.access ≠ .package)
    (hlast : ((l.parts none ms).filterMap Part.label?).getLast? =
      (lastOr none ms).bind (·.access.keyword?)) :
    ((l.parts none ms ++ l.separator (lastOr none ms) m).filterMap Part.label?).getLast? =
      m.access.keyword? := by
  have hkeyword := Access.keyword?_of_ne_package hm
  rw [List.filterMap_append, List.getLast?_append, hlast]
  cases hstarts : l.startsSection (lastOr none ms) m with
  | true =>
    rw [separator_of_starts hstarts hkeyword, hkeyword]
    cases (lastOr none ms).isSome <;> rfl
  | false =>
    obtain ⟨p, hp, hpm⟩ := Option.map_eq_some_iff.mp ((not_starts_iff hl).mp hstarts)
    have hnone : (l.separator (lastOr none ms) m).filterMap Part.label? = [] := by
      rcases separator_of_not_starts hstarts with h | h <;> rw [h] <;> rfl
    rw [hnone, hp, ← hpm]
    rfl

/-- The last label among the parts of some members is the keyword of the last one. -/
theorem getLast?_labels_parts (hl : l.style.access = .sections)
    (hms : ∀ e ∈ ms, e.1.access ≠ .package) :
    ((l.parts none ms).filterMap Part.label?).getLast? =
      (lastOr none ms).bind (·.access.keyword?) := by
  -- From the end: a separator looks back at the last member, not at the first.
  induction ms using List.reverseRec with
  | nil => rfl
  | append_singleton ms e ih =>
    obtain ⟨m, lines⟩ := e
    have hbefore := getLast?_labels_separator hl (hms (m, lines) (by simp))
      (ih fun e he => hms e (List.mem_append_left _ he))
    have hlast : lastOr none (ms ++ [(m, lines)]) = some m := by simp [lastOr]
    rw [hlast, parts_append, parts, parts, ← List.append_assoc, List.filterMap_append]
    simpa [Part.label?] using hbefore

/-- A label stands before a member exactly if its separator starts a section. -/
theorem getLast?_eq_label_iff (hm : m.access ≠ .package) {word : String} :
    (l.parts none ms ++ l.separator (lastOr none ms) m).getLast? = some (.label word) ↔
      l.startsSection (lastOr none ms) m = true ∧ m.access.keyword? = some word := by
  have hkeyword := Access.keyword?_of_ne_package hm
  cases hstarts : l.startsSection (lastOr none ms) m with
  | true =>
    rw [separator_of_starts hstarts hkeyword, ← List.append_assoc, hkeyword]
    simp
  | false =>
    have hne : (l.parts none ms ++ l.separator (lastOr none ms) m).getLast? ≠
        some (.label word) := by
      rcases separator_of_not_starts hstarts with h | h
      · rw [h, List.append_nil, getLast?_parts]
        cases ms.getLast? <;> simp
      · rw [h]
        simp
    exact ⟨fun h => absurd h hne, fun h => nomatch h.1⟩

theorem eq_nil_of_separator_eq {before rest : List Part} {word : String}
    (h : l.separator previous m = before ++ .label word :: rest) : rest = [] := by
  -- A separator has at most two parts, and a label is the last of them.
  have hlast : l.separator previous m = [] ∨ l.separator previous m = [.gap] ∨
      ∃ w, l.separator previous m = [.label w] ∨ l.separator previous m = [.gap, .label w] := by
    unfold separator
    split
    · cases previous <;> cases m.access.keyword? <;> simp
    · split <;> simp
  rcases hlast with hs | hs | ⟨w, hs | hs⟩ <;> rw [hs] at h
  · simp at h
  · cases before <;> simp at h
  · cases before with
    | nil => exact (List.cons.inj h).2.symm
    | cons x before => simp at h
  · rcases before with _ | ⟨x, _ | ⟨y, before⟩⟩
    · simp at h
    · exact (List.cons.inj (List.cons.inj h).2).2.symm
    · simp at h

theorem exists_member_of_label {before after : List Part} {word : String}
    (h : l.parts previous ms = before ++ .label word :: after) :
    ∃ m lines rest, after = .member m lines :: rest := by
  induction ms generalizing previous before with
  | nil => simp [parts] at h
  | cons e ms ih =>
    obtain ⟨m, lines⟩ := e
    rw [parts] at h
    rcases List.append_eq_append_iff.mp h with ⟨rest, rfl, hrest⟩ | ⟨rest, hsep, hrest⟩
    · cases rest with
      | nil => simp at hrest
      | cons x rest =>
        obtain ⟨-, htail⟩ := List.cons.inj hrest
        exact ih htail
    · cases rest with
      | nil => simp at hrest
      | cons x rest =>
        obtain ⟨rfl, rfl⟩ := List.cons.inj hrest
        rw [eq_nil_of_separator_eq hsep]
        exact ⟨m, lines, _, rfl⟩

/-- **The parts of a class are sectioned** unless a member has package level. -/
theorem sectioned_parts (hl : l.style.access = .sections)
    (hms : ∀ e ∈ ms, e.1.access ≠ .package) : Part.Sectioned (l.parts none ms) := by
  refine ⟨fun before m lines after h word => ?_, fun before m lines after h => ?_,
    fun before word after h => exists_member_of_label h⟩
  · obtain ⟨front, back, rfl, rfl, -⟩ := exists_split_of_parts h
    have hm : m.access ≠ .package := hms (m, lines) (by simp)
    have hmembers : ((l.parts none front ++ l.separator (lastOr none front) m).filterMap
        Part.member?).getLast?.map (·.1.access) = (lastOr none front).map (·.access) := by
      rw [List.filterMap_append, filterMap_member?_parts, filterMap_member?_separator,
        List.append_nil]
      simp [lastOr, Function.comp_def]
    rw [getLast?_eq_label_iff hm, startsSection_iff hl, hmembers]
  · obtain ⟨front, back, rfl, rfl, -⟩ := exists_split_of_parts h
    have hm : m.access ≠ .package := hms (m, lines) (by simp)
    refine ⟨getLast?_labels_separator hl hm (getLast?_labels_parts hl fun e he => ?_), ?_⟩
    · exact hms e (List.mem_append_left _ he)
    · rw [Access.keyword?_of_ne_package hm]
      rfl

end Layout

/-! ### C++ -/

theorem Profile.sections_of_cpp {p : Profile}
    (hp : p = .cpp ∨ ∃ o : Overlay, o.apply = .ok p ∧ p.target = .cpp) :
    p.style.access = .sections ∧ p.Writable := by
  rcases hp with rfl | ⟨o, ho, htarget⟩
  · exact ⟨rfl, writable_builtIn .cpp⟩
  · obtain ⟨hstyle, hwritable⟩ := Overlay.style_of_apply ho
    rw [hstyle, htarget]
    exact ⟨rfl, hwritable⟩

namespace Converter

variable {t : Converter} {d : Decl} {file : SourceFile}

/-- **Labels tell the access levels of members** in C++, with the built-in profile and under every
overlay: no member has package level, and the parts that a class is written in are sectioned. -/
theorem sections_faithful
    (hp : t.profile = .cpp ∨ ∃ o : Overlay, o.apply = .ok t.profile ∧ t.profile.target = .cpp)
    (h : (t.convert d).result = .ok file) :
    ∃ c text parts, t.Reaches d (.resolved c) ∧ (t.layout c).classText c = .ok text ∧
      file.text = t.profile.style.fileText c text ∧ (∀ x ∈ c.members, x.access ≠ .package) ∧
      (t.layout c).WrittenIn c parts text ∧ Part.Sectioned parts := by
  obtain ⟨hsections, hwritable⟩ := Profile.sections_of_cpp hp
  obtain ⟨m, f, c, hpasses, hemit⟩ := convert_ok_iff.mp h
  obtain ⟨lines, hlines, rfl⟩ := emit_ok_iff.mp hemit
  have hpackage := hpasses.access_ne_package hwritable (by rw [hsections]; decide)
  have hwritten := Layout.writtenIn_parts hlines
  have htext : (t.layout c).classText c = .ok ((t.layout c).assemble c lines) := by
    rw [Layout.classText_eq]
    exact congrArg (Except.map _) hlines
  refine ⟨c, _, _, hpasses.reaches, htext, rfl, hpackage, hwritten, ?_⟩
  refine Layout.sectioned_parts hsections fun e he => hpackage e.1 ?_
  rw [← hwritten.members, Layout.filterMap_member?_parts]
  exact List.mem_map_of_mem he

/-- An overlay for C++ that gives levels to visibilities which have none of their own. -/
def openOverlay : Overlay where
  target := " C++"
  visibility := .ofList [("internal", "protected")]
  fallback := some (.fixed "public")

/-- The profile that the overlay gives. -/
def openCpp : Profile :=
  { Profile.cpp with
    visibility := Profile.cpp.visibility.insert .internal .prot
    fallback := .fixed .pub }

/-- A class whose members go back and forth between levels. -/
def queueDecl : Decl where
  name := "Queue"
  members := [
    { name := "head", kind := .field { type := "int" } },
    { name := "Size", visibility := .package, kind := .property { type := "int" } },
    { name := "Grow", visibility := .internal, kind := .method {} },
    { name := "Trim", visibility := .prot, kind := .method {} }]

/-- The names of the members of the class, each with the label that the member stands under. -/
def queueLabels : List (String × String) :=
  [("head", "private"), ("sizeBackingField", "private"), ("getSize", "public"),
    ("grow", "protected"), ("trim", "protected")]

/-- The text of the class. -/
def queueText : String :=
  "class Queue\n\x7b\n" ++
    "private:\n    int32_t head;\n    int32_t sizeBackingField;\n\n" ++
    "public:\n    int32_t getSize()\n    \x7b\n        return sizeBackingField;\n    \x7d\n\n" ++
    "protected:\n    void grow()\n    \x7b\n    \x7d\n\n    void trim()\n    \x7b\n    \x7d\n" ++
    "\x7d;\n"

theorem sections_faithful_queue :
    openOverlay.apply = .ok openCpp ∧ openCpp.target = .cpp ∧
    ∃ file, (convert { profile := openCpp } queueDecl).result = .ok file ∧
      ∃ c parts, Reaches { profile := openCpp } queueDecl (.resolved c) ∧
        (layout { profile := openCpp } c).classText c = .ok queueText ∧
        file.text = openCpp.style.fileText c queueText ∧ (∀ x ∈ c.members, x.access ≠ .package) ∧
        (layout { profile := openCpp } c).WrittenIn c parts queueText ∧ Part.Sectioned parts ∧
        c.members.map (·.name) = queueLabels.map Prod.fst ∧
        ∀ before x lines after, parts = before ++ .member x lines :: after →
          (before.filterMap Part.label?).getLast? = queueLabels.lookup x.name := by
  have happly : openOverlay.apply = .ok openCpp := by decide +kernel
  have hpasses : Passes { profile := openCpp } queueDecl _ _ _ := ⟨rfl, rfl, rfl⟩
  have hfile := convert_ok_iff.mpr ⟨_, _, _, hpasses, emit_ok_iff.mpr ⟨_, rfl, rfl⟩⟩
  obtain ⟨c, text, parts, hreaches, htext, hwraps, hpackage, hwritten, hsectioned⟩ :=
    sections_faithful (.inr ⟨openOverlay, happly, rfl⟩) hfile
  obtain ⟨m, f, hp⟩ := hreaches.attained
  obtain rfl := hp.unique hpasses
  obtain rfl : text = queueText := by
    refine Except.ok.inj (htext.symm.trans ?_)
    decide +kernel
  refine ⟨happly, rfl, _, hfile, _, parts, hreaches, htext, hwraps, hpackage, hwritten, hsectioned,
    rfl, fun before x lines after hparts => ?_⟩
  rw [(hsectioned.last_label before x lines after hparts).1]
  -- The label is now known by the level of the member, and there are five members to look at.
  have hx : x ∈ (parts.filterMap Part.member?).map Prod.fst := by simp [hparts, Part.member?]
  rw [hwritten.members] at hx
  clear hparts
  revert x
  decide +kernel

end Converter

end ClassIdiom
