import ClassIdiom.Proofs.ClassText
import ClassIdiom.Proofs.Expansion
import ClassIdiom.Proofs.Runs

/-! # Conversions that succeed

A conversion succeeds exactly if each stage does (`convert_ok_iff`). `Converter.Passes` holds the
three classes on the way; the members of the last one are known from the declaration
(`Passes.members_eq`), and so is the text that is written for it (`emit_ok_iff`). Taken step by
step, a conversion comes to these classes and to no others (`Reaches.attained`). -/

namespace ClassIdiom

namespace Converter

variable {t : Converter} {d : Decl} {m : Mapped} {f : Flat} {c : Resolved} {file : SourceFile}

/-- **A declaration passes the first three stages**, with what each of them gives. -/
structure Passes (t : Converter) (d : Decl) (m : Mapped) (f : Flat) (c : Resolved) : Prop where
  mapped : (d.mapped t.profile).result = .ok m
  flattened : (Mapped.flattened m t.profile.naming).result = .ok f
  resolved : (Flat.resolved f t.hierarchy).result = .ok c

theorem convert_ok_iff :
    (t.convert d).result = .ok file ↔ ∃ m f c, t.Passes d m f c ∧ t.emit c = .ok file := by
  unfold convert map flatten resolve write
  simp only [Logged.bind_ok_iff, Stage.run_ok_iff, Logged.result_ofExcept]
  constructor
  · rintro ⟨m, hm, f, hf, c, hc, hfile⟩
    exact ⟨m, f, c, ⟨hm, hf, hc⟩, hfile⟩
  · rintro ⟨m, f, c, ⟨hm, hf, hc⟩, hfile⟩
    exact ⟨m, hm, f, hf, c, hc, hfile⟩

/-- Where a converter finds what the members of a class override. -/
abbrev source (t : Converter) (d : Decl) : Signature → OverrideSource :=
  Hierarchy.source t.hierarchy d.parents

namespace Passes

theorem reaches (h : t.Passes d m f c) : t.Reaches d (.resolved c) := by
  have hmapped : t.Reaches d (.mapped m) :=
    .step .start (Logged.map_ok_iff.mpr ⟨m, Stage.run_ok_iff.mpr h.mapped, rfl⟩)
  have hflat : t.Reaches d (.flat f) :=
    .step hmapped (Logged.map_ok_iff.mpr ⟨f, Stage.run_ok_iff.mpr h.flattened, rfl⟩)
  exact .step hflat (Logged.map_ok_iff.mpr ⟨c, Stage.run_ok_iff.mpr h.resolved, rfl⟩)

theorem unique {m' : Mapped} {f' : Flat} {c' : Resolved} (h : t.Passes d m f c)
    (h' : t.Passes d m' f' c') : c' = c := by
  obtain rfl := Except.ok.inj (h.mapped.symm.trans h'.mapped)
  obtain rfl := Except.ok.inj (h.flattened.symm.trans h'.flattened)
  exact Except.ok.inj (h'.resolved.symm.trans h.resolved)

theorem levels (h : t.Passes d m f c) :
    List.Forall₂ (fun x a => (t.profile.mapMember d.name x).result = .ok a) d.members m.members :=
  (Decl.mapped_ok_iff.mp h.mapped).2.2.1

/-- The class is the one without properties, with its marks set. -/
theorem members_eq_map (h : t.Passes d m f c) :
    c.members = f.members.map (·.marked (t.source d)) := by
  obtain ⟨-, -, -, hm⟩ := Decl.mapped_ok_iff.mp h.mapped
  obtain ⟨-, hf⟩ := Mapped.flattened_ok_iff.mp h.flattened
  obtain ⟨-, rfl⟩ := Flat.resolved_ok_iff.mp h.resolved
  -- The parents are those of the declaration all along.
  have hparents : f.bases ++ f.capabilities = d.parents := by rw [hf, hm]; rfl
  simp only [hparents]

theorem members_eq (h : t.Passes d m f c) :
    c.members = m.members.flatMap fun a =>
      (a.expand t.profile.naming).map (·.marked (t.source d)) := by
  obtain ⟨-, hf⟩ := Mapped.flattened_ok_iff.mp h.flattened
  rw [h.members_eq_map, hf, List.map_flatMap]

/-- Each member of the class stands, with others, for a declared one. -/
theorem exists_expands_of_mem (h : t.Passes d m f c) {x : FlatMember} (hx : x ∈ c.members) :
    ∃ y ∈ d.members, ∃ part, y.Expands t.profile (t.source d) part ∧ x ∈ part := by
  rw [h.members_eq] at hx
  obtain ⟨a, ha, hx⟩ := List.mem_flatMap.mp hx
  obtain ⟨y, hy, hya⟩ := Logged.exists_of_mem_of_forall₂ h.levels ha
  exact ⟨y, hy, _, Profile.expands_of_mapMember hya, hx⟩

/-- What stands for a declared member is in the class. -/
theorem exists_part_of_declared (h : t.Passes d m f c) {y : Member} (hy : y ∈ d.members) :
    ∃ part, y.Expands t.profile (t.source d) part ∧ ∀ x ∈ part, x ∈ c.members := by
  obtain ⟨a, ha, hya⟩ := Logged.exists_of_mem_of_forall₂ h.levels.flip hy
  refine ⟨_, Profile.expands_of_mapMember hya, fun x hx => ?_⟩
  rw [h.members_eq]
  exact List.mem_flatMap.mpr ⟨a, ha, hx⟩

/-- For each declared member a member of the class stands, maybe with others. -/
theorem exists_mem_of_declared (h : t.Passes d m f c) {y : Member} (hy : y ∈ d.members) :
    ∃ x ∈ c.members, ∃ part, y.Expands t.profile (t.source d) part ∧ x ∈ part := by
  obtain ⟨part, hexp, hpart⟩ := h.exists_part_of_declared hy
  obtain ⟨x, hx⟩ := List.exists_mem_of_ne_nil _ hexp.ne_nil
  exact ⟨x, hpart x hx, part, hexp, hx⟩

end Passes

/-- **What a phase holds**: what the stages so far give for the declaration. -/
def Attained (t : Converter) (d : Decl) : Phase → Prop
  | .loaded d' => d' = d
  | .mapped m => (d.mapped t.profile).result = .ok m
  | .flat f => ∃ m, (d.mapped t.profile).result = .ok m ∧
      (Mapped.flattened m t.profile.naming).result = .ok f
  | .resolved c => ∃ m f, t.Passes d m f c
  | .emitted file => (t.convert d).result = .ok file

theorem Attained.advance {q q' : Phase} (h : t.Attained d q)
    (next : (t.advance q).result = .ok q') : t.Attained d q' := by
  cases q with
  | loaded d' =>
    obtain rfl : d' = d := h
    obtain ⟨m, hm, rfl⟩ := Logged.map_ok_iff.mp next
    exact Stage.run_ok_iff.mp hm
  | mapped m =>
    obtain ⟨f, hf, rfl⟩ := Logged.map_ok_iff.mp next
    exact ⟨m, h, Stage.run_ok_iff.mp hf⟩
  | flat f =>
    obtain ⟨m, hm, hf⟩ := h
    obtain ⟨c, hc, rfl⟩ := Logged.map_ok_iff.mp next
    exact ⟨m, f, hm, hf, Stage.run_ok_iff.mp hc⟩
  | resolved c =>
    obtain ⟨m, f, hp⟩ := h
    obtain ⟨file, hfile, rfl⟩ := Logged.map_ok_iff.mp next
    exact convert_ok_iff.mpr ⟨m, f, c, hp, Stage.run_ok_iff.mp hfile⟩
  | emitted file =>
    obtain rfl : Phase.emitted file = q' := Except.ok.inj next
    exact h

theorem Reaches.attained {q : Phase} (h : t.Reaches d q) : t.Attained d q := by
  induction h with
  | start => rfl
  | step _ next ih => exact ih.advance next

/-- The file that a conversion gives is that of the class it comes to. -/
theorem Reaches.emit_of_convert (h : t.Reaches d (.resolved c))
    (hfile : (t.convert d).result = .ok file) : t.emit c = .ok file := by
  obtain ⟨m, f, hp⟩ := h.attained
  obtain ⟨m', f', c', hp', hemit⟩ := convert_ok_iff.mp hfile
  rwa [hp.unique hp'] at hemit

/-! ### The file -/

/-- What the members of a class are laid out with. -/
def layout (t : Converter) (c : Resolved) : Layout := ⟨t.profile.style, t.typeNames c, c.name⟩

/-- The layout depends on the declaration only by its name and parents. -/
theorem Passes.layout_eq (h : t.Passes d m f c) :
    t.layout c = ⟨t.profile.style,
      TypeNames.of t.profile (t.known ++ d.name :: (d.bases.head?.toList ++ d.capabilities.toList)),
      d.name⟩ := by
  obtain ⟨-, -, -, hm⟩ := Decl.mapped_ok_iff.mp h.mapped
  obtain ⟨-, hf⟩ := Mapped.flattened_ok_iff.mp h.flattened
  obtain ⟨-, rfl⟩ := Flat.resolved_ok_iff.mp h.resolved
  rw [hf, hm]
  rfl

/-- **The last stage** succeeds exactly if each member can be laid out. -/
theorem emit_ok_iff :
    t.emit c = .ok file ↔ ∃ lines, c.members.mapM (t.layout c).memberLines = .ok lines ∧
      file = ⟨c.name, c.name, t.profile.fileExtension,
        t.profile.style.fileText c ((t.layout c).assemble c lines)⟩ := by
  unfold emit
  simp only [Layout.fileText_eq]
  change Except.map _ (c.members.mapM (t.layout c).memberLines) >>= _ = _ ↔ _
  cases c.members.mapM (t.layout c).memberLines with
  | error e => simp [Except.map, bind, Except.bind]
  | ok lines =>
    simp only [Except.map, bind, Except.bind, Except.ok.injEq, exists_eq_left']
    exact eq_comm

theorem exists_memberLines_of_emit (h : t.emit c = .ok file) {x : FlatMember}
    (hx : x ∈ c.members) : ∃ lines, (t.layout c).memberLines x = .ok lines := by
  obtain ⟨lines, hlines, -⟩ := emit_ok_iff.mp h
  have heach : List.Forall₂ (fun ls y => (t.layout c).memberLines y = .ok ls) lines c.members :=
    List.Forall₂.flip (Logged.except_mapM_ok_iff.mp hlines)
  obtain ⟨ls, -, hls⟩ := Logged.exists_of_mem_of_forall₂ heach hx
  exact ⟨ls, hls⟩

end Converter

end ClassIdiom
