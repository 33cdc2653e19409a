import ClassIdiom.Proofs.Failures
import ClassIdiom.Proofs.Runs

/-! # The sources of overrides do not show

A hierarchy of known types decides from which ancestor a member that overrides another is confirmed,
and nothing else: the member is marked in any case, and where it is written only the mark counts.
So the file that comes out, or the failure, is the same with any hierarchy and with none
(`convert_hierarchy_irrelevant`).

The classes that two hierarchies give differ by `Resolved.marked`, which sets the sources of all
marks. Each part of the layout is shown not to see it. -/

namespace ClassIdiom

/-- The class with the sources of its marks set. -/
def Resolved.marked (source : Signature → OverrideSource) (c : Resolved) : Resolved :=
  { c with members := c.members.map (·.marked source) }

/-! ### Lines of a member -/

namespace Style

variable (s : Style) (source : OverrideSource) (o : Option OverrideSource)

theorem overrideLine_map : s.overrideLine (o.map fun _ => source) = s.overrideLine o := by
  unfold overrideLine
  cases o <;> cases s.overrides <;> rfl

theorem overrideWord_map : s.overrideWord (o.map fun _ => source) = s.overrideWord o := by
  unfold overrideWord
  cases o <;> cases s.overrides <;> rfl

end Style

namespace FlatMember

variable (source : Signature → OverrideSource) (x : FlatMember)

@[simp]
theorem access_marked : (x.marked source).access = x.access := by
  cases x <;> rfl

@[simp]
theorem isField_marked : (x.marked source).isField = x.isField := by
  cases x <;> rfl

end FlatMember

namespace Layout

variable (l : Layout) (source : Signature → OverrideSource)

/-- **A member is laid out alike** whatever the source of its mark. -/
theorem memberLines_marked (x : FlatMember) :
    l.memberLines (x.marked source) = l.memberLines x := by
  cases x with
  | field f => rfl
  | method m =>
    unfold FlatMember.marked memberLines methodLines methodHead methodDecorators
    simp only [Style.overrideLine_map, Style.overrideWord_map]
    rfl
  | constructor c =>
    unfold FlatMember.marked memberLines constructorLines
    simp only [Style.overrideLine_map, Style.overrideWord_map]
    rfl

/-! ### Text of a class -/

theorem separate_marked (previous : Option FlatMember) (x : FlatMember) (w : Writer) :
    l.separate (previous.map (·.marked source)) (x.marked source) w = l.separate previous x w := by
  unfold separate startsSection needsGap
  cases previous <;> simp

theorem placeMembers_marked (ms : List FlatMember) (lines : List (List Line))
    (previous : Option FlatMember) (w : Writer) :
    l.placeMembers (previous.map (·.marked source)) ((ms.map (·.marked source)).zip lines) w =
      l.placeMembers previous (ms.zip lines) w := by
  induction ms generalizing lines previous w with
  | nil => rfl
  | cons m ms ih =>
    cases lines with
    | nil => rfl
    | cons first rest =>
      rw [List.map_cons, List.zip_cons_cons, List.zip_cons_cons, placeMembers, placeMembers,
        separate_marked]
      exact ih rest (some m) _

theorem assemble_marked (c : Resolved) (lines : List (List Line)) :
    l.assemble (c.marked source) lines = l.assemble c lines := by
  have hplaced := l.placeMembers_marked source c.members lines none
  have hempty : l.emptyLines (c.marked source) = l.emptyLines c := by
    unfold emptyLines Resolved.marked
    cases c.members <;> rfl
  unfold assemble
  simp only [hempty]
  exact congrArg (fun w => ((w.putLines (l.emptyLines c)).dedent.putLines l.endLines).text)
    (hplaced _)

theorem mapM_memberLines_marked (ms : List FlatMember) :
    (ms.map (·.marked source)).mapM l.memberLines = ms.mapM l.memberLines := by
  have hlines : l.memberLines ∘ (·.marked source) = l.memberLines :=
    funext fun x => l.memberLines_marked source x
  rw [List.mapM_map, hlines]

/-- **A class is written alike** whatever the sources of its marks. -/
theorem fileText_marked (c : Resolved) : l.fileText (c.marked source) = l.fileText c := by
  have htext : ∀ lines, l.style.fileText (c.marked source)
      ({ l with className := c.name }.assemble (c.marked source) lines) =
      l.style.fileText c ({ l with className := c.name }.assemble c lines) := by
    intro lines
    rw [assemble_marked]
    rfl
  rw [fileText_eq, fileText_eq, ← mapM_memberLines_marked _ source c.members]
  exact congrArg (Except.map · _) (funext htext)

end Layout

/-! ### Conversion -/

/-- The class with its parents taken over and its marks as they are. -/
def Flat.adopted (f : Flat) : Resolved :=
  ⟨f.name, f.access, f.special, f.container, f.imports, f.bases.head?, f.capabilities, f.members⟩

namespace Converter

theorem emit_marked (t : Converter) (source : Signature → OverrideSource) (c : Resolved) :
    t.emit (c.marked source) = t.emit c := by
  unfold emit
  exact congrArg (· >>= _) (Layout.fileText_marked _ source c)

/-- The last two stages: there are several base types, or the class is written as it stands. -/
theorem resolve_emit_eq (t : Converter) (h : Option Hierarchy) (f : Flat) :
    (do
      let c ← (Flat.resolved f h).result.mapError (StageFailure.mk .inheritance)
      (t.emit c).mapError (StageFailure.mk .emission)) =
    if f.bases.length ≤ 1 then (t.emit f.adopted).mapError (StageFailure.mk .emission)
    else .error ⟨.inheritance, f.name, none, .multipleBases f.bases⟩ := by
  by_cases hb : f.bases.length ≤ 1
  · have hmarked : (Flat.resolved f h).result =
        .ok (f.adopted.marked (Hierarchy.source h (f.bases ++ f.capabilities))) :=
      Flat.resolved_ok_iff.mpr ⟨hb, rfl⟩
    rw [hmarked, if_pos hb]
    exact congrArg (Except.mapError _) (t.emit_marked _ f.adopted)
  · have hmany : (Flat.resolved f h).result =
        .error ⟨f.name, none, .multipleBases f.bases⟩ :=
      Flat.resolved_error_iff.mpr ⟨Nat.lt_of_not_le hb, rfl⟩
    rw [hmany, if_neg hb]
    rfl

/-- **The result of a conversion**, told without the hierarchy. -/
theorem result_convert_adopted (t : Converter) (d : Decl) :
    (t.convert d).result = (do
      let m ← (d.mapped t.profile).result.mapError (.mk .mapping)
      let f ← (Mapped.flattened m t.profile.naming).result.mapError (.mk .expansion)
      if f.bases.length ≤ 1 then (t.emit f.adopted).mapError (.mk .emission)
      else .error ⟨.inheritance, f.name, none, .multipleBases f.bases⟩) := by
  rw [result_convert]
  simp only [resolve_emit_eq]

/-- **Known ancestors do not show** in what a conversion gives: neither in the file nor in the
failure. -/
theorem convert_hierarchy_irrelevant (p : Profile) (known : List String) (d : Decl)
    (h h' : Option Hierarchy) :
    (convert { profile := p, hierarchy := h, known } d).result =
      (convert { profile := p, hierarchy := h', known } d).result := by
  rw [result_convert_adopted, result_convert_adopted]
  rfl

end Converter

end ClassIdiom
