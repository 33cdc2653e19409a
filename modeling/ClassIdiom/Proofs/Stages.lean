import ClassIdiom.Proofs.Logged
import ClassIdiom.Resolved

/-! # What the first three stages give

For each of the first three stages, what it has made of its input if it succeeds: `mapped_ok_iff`
for access levels, `flattened_ok_iff` for the expansion of properties and `resolved_ok_iff` for
parents and overrides. Only the last one never fails on account of a member: it rewrites the marks
of overriding members (`FlatMember.marked`) and leaves all else alone. -/

namespace ClassIdiom

/-! ### Access levels -/

/-- The member with access levels given to it. -/
def Member.mappedAs (m : Member) (access : Access) (kind : MappedKind) : MappedMember :=
  ⟨m.name, access, m.isStatic, m.isOverride, m.special, kind⟩

namespace Profile

variable {p : Profile} {typeName : String} {m : Member}

@[simp]
theorem result_lookUp {ε : Type} (p : Profile) (v : Visibility) :
    (p.lookUp v : Logged ε (Option Access)).result = .ok (p.access? v) := by
  unfold lookUp
  cases p.visibility.contains v <;> rfl

theorem mapVisibility_ok_iff {member : Option String} {v : Visibility} {a : Access} :
    (p.mapVisibility typeName member v).result = .ok a ↔ p.access? v = some a := by
  unfold mapVisibility
  rw [Logged.bind_ok_iff]
  simp only [result_lookUp, Except.ok.injEq, exists_eq_left']
  cases p.access? v with
  | none => simp
  | some level => simp

/-- The accessors get the levels of their own visibilities, or else of the property's. -/
theorem mapProperty_ok_iff {prop : Property} {q : MappedProperty} :
    (p.mapProperty typeName m prop).result = .ok q ↔
      p.access? (prop.getter.resolve m.visibility) = some q.getter ∧
      prop.setter.map (fun a => p.access? (a.resolve m.visibility)) = q.setter.map some ∧
      q.type = prop.type ∧ q.initial = prop.initial := by
  obtain ⟨type, getter, setter, initial⟩ := q
  unfold mapProperty
  rw [Logged.bind_ok_iff]
  cases prop.setter with
  | none =>
    simp only [Logged.bind_ok_iff, mapVisibility_ok_iff, Logged.pure_ok_iff,
      MappedProperty.mk.injEq]
    constructor
    · rintro ⟨g, hg, _, rfl, rfl, rfl, rfl, rfl⟩
      exact ⟨hg, rfl, rfl, rfl⟩
    · rintro ⟨hg, hs, ht, hi⟩
      have hs' : setter = none := by simpa using hs.symm
      exact ⟨getter, hg, none, rfl, ht.symm, rfl, hs'.symm, hi.symm⟩
  | some a =>
    simp only [Logged.bind_ok_iff, Logged.map_ok_iff, mapVisibility_ok_iff, Logged.pure_ok_iff,
      MappedProperty.mk.injEq]
    constructor
    · rintro ⟨g, hg, _, ⟨s, hs, rfl⟩, rfl, rfl, rfl, rfl⟩
      exact ⟨hg, by simp [hs], rfl, rfl⟩
    · rintro ⟨hg, hs, ht, hi⟩
      obtain ⟨s, rfl, hs'⟩ := Option.map_eq_some_iff.mp hs.symm
      exact ⟨getter, hg, some s, ⟨s, hs'.symm, rfl⟩, ht.symm, rfl, rfl, hi.symm⟩

theorem mapMember_ok_iff {a : MappedMember} :
    (p.mapMember typeName m).result = .ok a ↔
      p.access? m.visibility = some a.access ∧
      (p.checkSpecial typeName m).result = .ok () ∧ (p.checkStatic typeName m).result = .ok () ∧
      (p.mapKind typeName m).result = .ok a.kind ∧ a = m.mappedAs a.access a.kind := by
  unfold mapMember
  simp only [Logged.bind_ok_iff, mapVisibility_ok_iff, Logged.pure_ok_iff]
  constructor
  · rintro ⟨access, ha, u, hspecial, v, hstatic, kind, hk, rfl⟩
    exact ⟨ha, hspecial, hstatic, hk, rfl⟩
  · rintro ⟨ha, hspecial, hstatic, hk, he⟩
    exact ⟨_, ha, (), hspecial, (), hstatic, _, hk, he.symm⟩

end Profile

/-- **The first stage** succeeds exactly if the type and each member pass. -/
theorem Decl.mapped_ok_iff {d : Decl} {p : Profile} {m : Mapped} :
    (d.mapped p).result = .ok m ↔
      p.access? d.visibility = some m.access ∧
      (p.checkClassSpecial d.name d.special).result = .ok () ∧
      List.Forall₂ (fun x a => (p.mapMember d.name x).result = .ok a) d.members m.members ∧
      m = ⟨d.name, m.access, d.special, d.container, d.imports, d.bases, d.capabilities.toList,
        m.members⟩ := by
  unfold mapped
  simp only [Logged.bind_ok_iff, Profile.mapVisibility_ok_iff, Logged.mapM_ok_iff,
    Logged.pure_ok_iff]
  constructor
  · rintro ⟨access, ha, u, hspecial, members, hm, rfl⟩
    exact ⟨ha, hspecial, hm, rfl⟩
  · rintro ⟨ha, hspecial, hm, he⟩
    exact ⟨_, ha, (), hspecial, _, hm, he.symm⟩

/-! ### Expansion -/

/-- **The second stage** succeeds exactly if all names can be claimed, and puts the expansions of
the members in their places. -/
theorem Mapped.flattened_ok_iff {m : Mapped} {n : Naming} {f : Flat} :
    (Mapped.flattened m n).result = .ok f ↔
      (∃ t, (m.members.foldlM (NameTable.claimGenerated n m.name)
        (NameTable.declared n m.members)).result = .ok t) ∧
      f = { m with members := m.members.flatMap (·.expand n) } := by
  unfold flattened
  simp only [Logged.bind_ok_iff, Logged.pure_ok_iff]
  constructor
  · rintro ⟨t, ht, rfl⟩
    exact ⟨⟨t, ht⟩, rfl⟩
  · rintro ⟨⟨t, ht⟩, rfl⟩
    exact ⟨t, ht, rfl⟩

theorem Mapped.flattened_error_iff {m : Mapped} {n : Naming} {e : Failure} :
    (Mapped.flattened m n).result = .error e ↔
      (m.members.foldlM (NameTable.claimGenerated n m.name)
        (NameTable.declared n m.members)).result = .error e := by
  unfold flattened
  rw [Logged.bind_error_iff]
  simp

/-! ### Overrides -/

/-- What a hierarchy, if there is one, says of a member that overrides another. -/
def Hierarchy.source (h : Option Hierarchy) (parents : List String) (s : Signature) :
    OverrideSource :=
  match h.bind (·.declaring? parents s) with
  | some ancestor => .confirmed ancestor
  | none => .declared

/-- The member with the source of its mark, if it is marked as overriding another. -/
def FlatMember.marked (source : Signature → OverrideSource) : FlatMember → FlatMember
  | .field f => .field f
  | .method m => .method { m with overrides := m.overrides.map fun _ => source m.signature }
  | .constructor c =>
    .constructor { c with overrides := c.overrides.map fun _ => source c.signature }

namespace Hierarchy

variable {ε : Type} (h : Option Hierarchy) (typeName : String) (parents : List String)

@[simp]
theorem result_confirm (s : Signature) :
    (confirm h typeName parents s : Logged ε OverrideSource).result =
      .ok (source h parents s) := by
  unfold confirm source
  cases h with
  | none => rfl
  | some h =>
    simp only [Option.bind_some]
    cases h.declaring? parents s <;> rfl

@[simp]
theorem result_confirmMark (s : Signature) (o : Option OverrideSource) :
    (confirmMark h typeName parents s o : Logged ε (Option OverrideSource)).result =
      .ok (o.map fun _ => source h parents s) := by
  cases o with
  | none => rfl
  | some o =>
    refine Logged.map_ok_iff.mpr ⟨source h parents s, ?_, rfl⟩
    rw [result_confirm]

theorem result_confirmMember (x : FlatMember) :
    (confirmMember h typeName parents x : Logged ε FlatMember).result =
      .ok (x.marked (source h parents)) := by
  cases x with
  | field f => rfl
  | method m =>
    refine Logged.bind_ok_iff.mpr ⟨m.overrides.map fun _ => source h parents m.signature, ?_, rfl⟩
    rw [result_confirmMark]
  | constructor c =>
    refine Logged.bind_ok_iff.mpr ⟨c.overrides.map fun _ => source h parents c.signature, ?_, rfl⟩
    rw [result_confirmMark]

end Hierarchy

/-- **The third stage** succeeds exactly if there is at most one base, and sets the sources of the
marks. -/
theorem Flat.resolved_ok_iff {f : Flat} {h : Option Hierarchy} {c : Resolved} :
    (Flat.resolved f h).result = .ok c ↔
      f.bases.length ≤ 1 ∧
      c = ⟨f.name, f.access, f.special, f.container, f.imports, f.bases.head?, f.capabilities,
        f.members.map (·.marked (Hierarchy.source h (f.bases ++ f.capabilities)))⟩ := by
  unfold resolved
  simp only [Logged.bind_ok_iff, Logged.require_ok_iff, Logged.mapM_ok_iff, Logged.pure_ok_iff,
    Hierarchy.result_confirmMember, Except.ok.injEq, decide_eq_true_eq]
  -- A list of computations that never fail is a map.
  simp only [← List.forall₂_map_left_iff, List.forall₂_eq_eq_eq]
  constructor
  · rintro ⟨u, hb, members, rfl, rfl⟩
    exact ⟨hb, rfl⟩
  · rintro ⟨hb, rfl⟩
    exact ⟨(), hb, _, rfl, rfl⟩

end ClassIdiom
