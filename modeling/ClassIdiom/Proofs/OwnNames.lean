import ClassIdiom.Proofs.Attribution
import ClassIdiom.Proofs.MemberLines
import ClassIdiom.Proofs.Spelling

/-! # The own names of a class

The name of a class and those of its parents are written in two ways. The head of the class has them
as they are; where a member mentions one of them as a type, the name has a spelling. The two agree
for plain names, which have no blanks around them, are no arrays and have no entry in the table of
the profile. Any other name is spelled by the table, as an array, or without its blanks.

`own_names_spelled` says so of every class that can be converted, `own_names_can_differ` has a name
of each kind whose spelling is another one. -/

namespace ClassIdiom

open Text (EndsApart StartsApart SetApart endsApart_mark startsApart_mark startsApart_empty
  startsApart_of_isMark)

/-! ### The head of a class -/

namespace Layout

variable {l : Layout} {c : Resolved}

theorem startsApart_heritage (l : Layout) (c : Resolved) : StartsApart (l.heritage c) := by
  unfold heritage
  simp only [String.append_assoc]
  split
  · refine StartsApart.append ?_ ?_
    · split
      · exact startsApart_mark (by decide) _
      · exact startsApart_empty
    · split
      · exact startsApart_empty
      · exact startsApart_mark (by decide) _
  · split
    · exact startsApart_empty
    · exact startsApart_mark (by decide) _
  · split
    · exact startsApart_empty
    · exact startsApart_mark (by decide) _

/-- Each parent stands apart in the list of parents, whatever comes before the list. -/
theorem setApart_heritage {parent : String} (hp : parent ∈ c.parents) (front : String) :
    SetApart parent (front ++ l.heritage c) := by
  have hne : c.parents.isEmpty = false := List.isEmpty_eq_false_iff_exists_mem.mpr ⟨parent, hp⟩
  unfold heritage
  split
  · next base capabilities _ =>
    rcases List.mem_append.mp hp with hbase | hcap
    · rw [Option.mem_toList.mp hbase]
      simp only [← String.append_assoc]
      refine SetApart.between (endsApart_mark (by decide) _) ?_ parent
      split
      · exact startsApart_empty
      · simp only [String.append_assoc]
        exact startsApart_mark (by decide) _
    · have hcaps : c.capabilities.isEmpty = false :=
        List.isEmpty_eq_false_iff_exists_mem.mpr ⟨parent, hcap⟩
      rw [hcaps, if_neg Bool.false_ne_true]
      simp only [← String.append_assoc]
      exact (SetApart.intercalate hcap).prepend (endsApart_mark (by decide) _)
  · next access _ =>
    have hparent : SetApart parent (Style.leading access ++ parent) :=
      (SetApart.refl parent).prepend (Style.endsApart_leading access)
    rw [hne, if_neg Bool.false_ne_true, ← String.append_assoc]
    exact (hparent.trans (SetApart.intercalate (List.mem_map_of_mem hp))).prepend
      (endsApart_mark (by decide) _)
  · rw [hne, if_neg Bool.false_ne_true, ← String.append_assoc, ← String.append_assoc]
    exact ((SetApart.intercalate hp).prepend (endsApart_mark (by decide) _)).append
      (startsApart_of_isMark (by decide))

/-- **The head of a class** has its name and those of its parents as they are. -/
theorem exists_headLine {name : String} (hn : name ∈ c.name :: c.parents) :
    ∃ line ∈ l.headLines c, SetApart name line.text := by
  let front := l.style.accessWord c.access ++ Style.leading (l.style.classForm c.special).before ++
    "class "
  let middle := Style.following (l.style.classForm c.special).after
  have hhead : SetApart name (front ++ c.name ++ middle ++ l.heritage c) := by
    rcases List.mem_cons.mp hn with rfl | hn
    · exact (SetApart.between (endsApart_mark (by decide) _) (Style.startsApart_following _)
        c.name).append (l.startsApart_heritage c)
    · exact setApart_heritage hn _
  unfold headLines
  cases l.style.blocks with
  | braces => exact ⟨⟨0, _⟩, List.mem_append_right _ List.mem_cons_self, hhead⟩
  | indented placeholder =>
    exact ⟨⟨0, _⟩, List.mem_append_right _ List.mem_cons_self,
      hhead.append (startsApart_of_isMark (by decide))⟩

end Layout

/-! ### Spellings -/

namespace TypeNames

/-- **The spelling of a name**, by the first of the rules that applies. -/
inductive Spelled (t : TypeNames) (name : String) : String → Prop where
  | entry {spelling : String} (entry : t.table.get? (Text.trim name) = some spelling) :
    Spelled t name spelling
  | array {element spelling : String} (noEntry : t.table.get? (Text.trim name) = none)
    (isArray : Text.trim name = element ++ "[]") (inner : t.spell element = some spelling) :
    Spelled t name (Text.fill t.arrayFormat spelling)
  | known (noEntry : t.table.get? (Text.trim name) = none)
    (notArray : ∀ element, Text.trim name ≠ element ++ "[]") : Spelled t name (Text.trim name)

/-- A name that no rule changes. -/
structure IsPlain (t : TypeNames) (name : String) : Prop where
  trimmed : Text.trim name = name
  noEntry : t.table.get? name = none
  notArray : ∀ element, name ≠ element ++ "[]"

variable {t : TypeNames} {name spelling : String}

theorem spelled_of_spell (h : t.spell name = some spelling) : t.Spelled name spelling := by
  rw [spell_eq] at h
  cases hentry : t.table.get? (Text.trim name) with
  | some s =>
    rw [hentry] at h
    obtain rfl := Option.some.inj h
    exact .entry hentry
  | none =>
    rw [hentry] at h
    cases helement : element? (Text.trim name) with
    | some element =>
      rw [helement] at h
      obtain ⟨s, hs, rfl⟩ := Option.map_eq_some_iff.mp h
      exact .array hentry (element?_eq_some_iff.mp helement) hs
    | none =>
      rw [helement] at h
      obtain ⟨-, hs⟩ := Option.ite_none_right_eq_some.mp h
      obtain rfl := Option.some.inj hs
      refine .known hentry fun element he => ?_
      rw [element?_eq_some_iff.mpr he] at helement
      exact nomatch helement

theorem Spelled.eq_of_isPlain (h : t.Spelled name spelling) (hp : t.IsPlain name) :
    spelling = name := by
  have htrim := hp.trimmed
  cases h with
  | entry hentry =>
    rw [htrim, hp.noEntry] at hentry
    exact nomatch hentry
  | array _ harray _ =>
    rw [htrim] at harray
    exact absurd harray (hp.notArray _)
  | known _ _ => exact htrim

end TypeNames

namespace Converter

variable {t : Converter} {d : Decl} {m : Mapped} {f : Flat} {c : Resolved} {file : SourceFile}

theorem Passes.own_names (h : t.Passes d m f c) : c.name :: c.parents = d.name :: d.parents := by
  obtain ⟨-, -, -, hm⟩ := Decl.mapped_ok_iff.mp h.mapped
  obtain ⟨-, hf⟩ := Mapped.flattened_ok_iff.mp h.flattened
  obtain ⟨hbases, rfl⟩ := Flat.resolved_ok_iff.mp h.resolved
  have hname : f.name = d.name := by rw [hf, hm]
  have hb : f.bases = d.bases := by rw [hf, hm]
  have hcaps : f.capabilities = d.capabilities.toList := by rw [hf, hm]
  have hhead : d.bases.head?.toList = d.bases := by
    rw [hb] at hbases
    match d.bases, hbases with
    | [], _ => rfl
    | [base], _ => rfl
  change f.name :: (f.bases.head?.toList ++ f.capabilities) = d.name :: (d.bases ++ _)
  rw [hname, hb, hcaps, hhead]

/-- **The own names of a class** stand in its head as they are. A member that mentions one of them
as a type has the spelling that the rules for types give; for a plain name that is the name. -/
theorem own_names_spelled (hc : t.Reaches d (.resolved c))
    (h : (t.convert d).result = .ok file) :
    (∀ name ∈ d.name :: d.parents,
      ∃ line ∈ (t.layout c).headLines c, SetApart name line.text) ∧
    ∀ x ∈ c.members, ∀ name ∈ x.types, name ∈ d.name :: d.parents →
      ∃ spelling, (t.typeNames c).spell name = some spelling ∧
        (t.typeNames c).Spelled name spelling ∧
        ((t.typeNames c).IsPlain name → spelling = name) := by
  obtain ⟨m, f, hp⟩ := hc.attained
  refine ⟨fun name hn => ?_, fun x hx name hname _ => ?_⟩
  · rw [← hp.own_names] at hn
    exact Layout.exists_headLine hn
  · obtain ⟨lines, hlines⟩ := exists_memberLines_of_emit (hc.emit_of_convert h) hx
    obtain ⟨spelling, hs⟩ := Layout.exists_spelling_of_memberLines hlines hname
    have hspelled := TypeNames.spelled_of_spell hs
    exact ⟨spelling, hs, hspelled, hspelled.eq_of_isPlain⟩

/-- A class that mentions itself and its parents. -/
def treeDecl : Decl where
  name := "Tree"
  bases := ["Plant"]
  capabilities := .ofList ["Shape"]
  members := [
    { name := "next", kind := .field { type := "Tree" } },
    { name := "graft", kind := .method { params := [⟨"onto", "Plant"⟩], result := "Shape" } }]

theorem converts_treeDecl : ∃ c file, plainJava.Reaches treeDecl (.resolved c) ∧
    (plainJava.convert treeDecl).result = .ok file ∧
    ∃ x ∈ c.members, x.types = ["Shape", "Plant"] :=
  have hpasses : plainJava.Passes treeDecl _ _ _ := ⟨rfl, rfl, rfl⟩
  ⟨_, _, hpasses.reaches,
    convert_ok_iff.mpr ⟨_, _, _, hpasses, emit_ok_iff.mpr ⟨_, rfl, rfl⟩⟩,
    _, List.mem_cons_of_mem _ List.mem_cons_self, rfl⟩

theorem isPlain_plant (c : Resolved) : (plainJava.typeNames c).IsPlain "Plant" where
  trimmed := by decide
  noEntry := show Profile.java.types.get? "Plant" = none by decide
  notArray := by
    intro element he
    have hnone : TypeNames.element? "Plant" = none := by decide
    rw [TypeNames.element?_eq_some_iff.mpr he] at hnone
    exact nomatch hnone

theorem own_names_spelled_tree :
    ∃ c file, plainJava.Reaches treeDecl (.resolved c) ∧
      (plainJava.convert treeDecl).result = .ok file ∧
      (∃ line ∈ (plainJava.layout c).headLines c, SetApart "Plant" line.text) ∧
      (∃ x ∈ c.members, "Plant" ∈ x.types) ∧ (plainJava.typeNames c).IsPlain "Plant" ∧
      (plainJava.typeNames c).spell "Plant" = some "Plant" := by
  obtain ⟨c, file, hc, hfile, x, hx, htypes⟩ := converts_treeDecl
  obtain ⟨hhead, hspelled⟩ := own_names_spelled hc hfile
  have hplant : "Plant" ∈ x.types := by rw [htypes]; decide
  obtain ⟨spelling, hs, -, heq⟩ := hspelled x hx "Plant" hplant (by decide)
  rw [heq (isPlain_plant c)] at hs
  exact ⟨c, file, hc, hfile, hhead "Plant" (by decide), ⟨x, hx, hplant⟩, isPlain_plant c, hs⟩

/-- A class with the given parents and a field. -/
def linkDecl (name : String) (bases capabilities : List String) (type : String) : Decl where
  name := name
  bases := bases
  capabilities := .ofList capabilities
  members := [{ name := "link", kind := .field { type := type } }]

/-- The class can be converted, and a member mentions one of its own names in another spelling. -/
def Respells (t : Converter) (d : Decl) (name spelling : String) : Prop :=
  name ∈ d.name :: d.parents ∧ spelling ≠ name ∧
    ∃ c file, t.Reaches d (.resolved c) ∧ (t.convert d).result = .ok file ∧
      (∃ x ∈ c.members, name ∈ x.types) ∧ (t.typeNames c).spell name = some spelling

theorem Passes.respells (hp : t.Passes d m f c) {lines : List (List Line)}
    (hl : c.members.mapM (t.layout c).memberLines = .ok lines) {x : FlatMember}
    (hx : x ∈ c.members) {name spelling : String} (hname : name ∈ x.types)
    (hs : (t.typeNames c).spell name = some spelling) (hown : name ∈ d.name :: d.parents)
    (hne : spelling ≠ name) : t.Respells d name spelling :=
  ⟨hown, hne, c, _, hp.reaches,
    convert_ok_iff.mpr ⟨m, f, c, hp, emit_ok_iff.mpr ⟨lines, hl, rfl⟩⟩, ⟨x, hx, hname⟩, hs⟩

/-- **The own names of a class can be respelled**: the table may have another spelling for a parent,
a class may be named like an array, and the blanks around a name are dropped. -/
theorem own_names_can_differ :
    plainJava.Respells (linkDecl "Node" ["object"] [] "object") "object" "Object" ∧
    plainCpp.Respells (linkDecl "int[]" [] [] "int[]") "int[]" "std::vector<int32_t>" ∧
    plainJava.Respells (linkDecl "Node" ["Base"] [" Base "] " Base ") " Base " "Base" := by
  refine ⟨?_, ?_, ?_⟩
  · exact Passes.respells ⟨rfl, rfl, rfl⟩ rfl List.mem_cons_self List.mem_cons_self
      (by decide) (by decide) (by decide)
  · exact Passes.respells ⟨rfl, rfl, rfl⟩ rfl List.mem_cons_self List.mem_cons_self
      (by decide) (by decide) (by decide)
  · exact Passes.respells ⟨rfl, rfl, rfl⟩ rfl List.mem_cons_self List.mem_cons_self
      (by decide) (by decide) (by decide)

end Converter

end ClassIdiom
