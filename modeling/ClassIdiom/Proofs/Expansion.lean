import ClassIdiom.Proofs.Stages
import ClassIdiom.Profile.BuiltIn

/-! # What stands in a class for a member of its declaration

`Member.Expands p source m l` says that the class members `l` stand for the declared member `m`,
in the target of `p` and with the sources that `source` gives for what is overridden. It speaks of
the declaration only: which access levels, names, marks and bodies each kind of member ends up with
is said here without the stages between. `members_of_resolved`: what comes out of the first three
stages is the concatenation of one expansion a member, in order. -/

namespace ClassIdiom

namespace Member

variable (m : Member) (n : Naming) (source : Signature → OverrideSource)

/-- The mark of the member in a class, where it has the given signature. -/
def mark (s : Signature) : Option OverrideSource :=
  if m.isOverride then some (source s) else none

/-- The field that a property is stored in. -/
def storage (prop : Property) : FlatField where
  name := n.backingField m.name
  access := .priv
  isStatic := m.isStatic
  type := prop.type
  initial := prop.initial
  mutability := .mutable
  origin := .generated m.name

/-- The method that reads a property. -/
def reader (prop : Property) (access : Access) : FlatMethod where
  name := n.getter m.name
  signature := ⟨n.getter m.name, []⟩
  access := access
  isStatic := m.isStatic
  overrides := m.mark source ⟨n.getter m.name, []⟩
  special := m.special
  result := prop.type
  params := []
  body := if m.special = some .abstract then .abstract else .read (n.backingField m.name)
  origin := .generated m.name

/-- The method that writes a property. -/
def writer (prop : Property) (access : Access) : FlatMethod where
  name := n.setter m.name
  signature := ⟨n.setter m.name, [prop.type]⟩
  access := access
  isStatic := m.isStatic
  overrides := m.mark source ⟨n.setter m.name, [prop.type]⟩
  special := m.special
  result := voidType
  params := [⟨n.setterParam, prop.type⟩]
  body := if m.special = some .abstract then .abstract
    else .write (n.backingField m.name) n.setterParam
  origin := .generated m.name

/-- **The class members that stand for a declared one.** A property that is abstract is not stored,
and one without a setter is not written. -/
inductive Expands (p : Profile) (source : Signature → OverrideSource) (m : Member) :
    List FlatMember → Prop where
  | field {f : Field} {access : Access} (kind : m.kind = .field f)
      (level : p.access? m.visibility = some access) :
    Expands p source m [.field {
      name := m.name
      access := access
      isStatic := m.isStatic
      type := f.type
      initial := f.initial
      mutability := f.mutability
      origin := .declared }]
  | method {x : Method} {access : Access} (kind : m.kind = .method x)
      (level : p.access? m.visibility = some access) :
    Expands p source m [.method {
      name := p.naming.method m.name
      signature := ⟨m.name, x.params.map (·.type)⟩
      access := access
      isStatic := m.isStatic
      overrides := m.mark source ⟨m.name, x.params.map (·.type)⟩
      special := m.special
      result := x.result
      params := x.params
      body := if m.special = some .abstract then .abstract else .verbatim x.body
      origin := .declared }]
  | constructor {c : Constructor} {access : Access} (kind : m.kind = .constructor c)
      (level : p.access? m.visibility = some access) :
    Expands p source m [.constructor {
      signature := ⟨m.name, c.params.map (·.type)⟩
      access := access
      isStatic := m.isStatic
      overrides := m.mark source ⟨m.name, c.params.map (·.type)⟩
      params := c.params
      body := c.body }]
  | readOnly {prop : Property} {reads : Access} (kind : m.kind = .property prop)
      (getter : p.access? (prop.getter.visibility.getD m.visibility) = some reads)
      (setter : prop.setter = none) :
    Expands p source m
      ((if m.special = some .abstract then [] else [.field (m.storage p.naming prop)]) ++
        [.method (m.reader p.naming source prop reads)])
  | readWrite {prop : Property} {a : Accessor} {reads writes : Access}
      (kind : m.kind = .property prop)
      (getter : p.access? (prop.getter.visibility.getD m.visibility) = some reads)
      (setter : prop.setter = some a)
      (level : p.access? (a.visibility.getD m.visibility) = some writes) :
    Expands p source m
      ((if m.special = some .abstract then [] else [.field (m.storage p.naming prop)]) ++
        [.method (m.reader p.naming source prop reads),
          .method (m.writer p.naming source prop writes)])

theorem Expands.ne_nil {m : Member} {p : Profile} {source : Signature → OverrideSource}
    {part : List FlatMember} (h : m.Expands p source part) : part ≠ [] := by
  cases h <;> simp

theorem eq_storage_or_mem {prop : Property} {accessors : List FlatMember} {x : FlatMember}
    (h : x ∈ (if m.special = some .abstract then [] else [.field (m.storage n prop)]) ++
      accessors) : x = .field (m.storage n prop) ∨ x ∈ accessors := by
  rcases List.mem_append.mp h with hx | hx
  · split at hx
    · exact nomatch hx
    · exact .inl (List.mem_singleton.mp hx)
  · exact .inr hx

end Member

/-! ### Expansion of a member with access levels -/

namespace Member

variable (m : Member) (n : Naming) (source : Signature → OverrideSource) (access : Access)
  (kind : MappedKind)

theorem kind_mappedAs : (m.mappedAs access kind).kind = kind := rfl

theorem isAbstract_mappedAs :
    (m.mappedAs access kind).isAbstract = decide (m.special = some .abstract) := by
  simp [mappedAs, MappedMember.isAbstract, beq_eq_decide]

theorem overrides_mappedAs (s : Signature) :
    (m.mappedAs access kind).overrides.map (fun _ => source s) = m.mark source s := by
  unfold mappedAs MappedMember.overrides mark
  split <;> rfl

/-- The accessors of a property, once marked, are those that stand for it. -/
theorem marked_getter {prop : Property} {q : MappedProperty} (ht : q.type = prop.type) :
    FlatMember.marked source (.method ((m.mappedAs access kind).getter n q)) =
      .method (m.reader n source prop q.getter) := by
  unfold FlatMember.marked MappedMember.getter reader
  simp only [overrides_mappedAs, isAbstract_mappedAs, ht, decide_eq_true_eq]
  rfl

theorem marked_setter {prop : Property} {q : MappedProperty} (ht : q.type = prop.type)
    (writes : Access) :
    FlatMember.marked source (.method ((m.mappedAs access kind).setter n q writes)) =
      .method (m.writer n source prop writes) := by
  unfold FlatMember.marked MappedMember.setter writer MappedMember.setterParams
  simp only [overrides_mappedAs, isAbstract_mappedAs, ht, decide_eq_true_eq]
  rfl

theorem marked_backingField {prop : Property} {q : MappedProperty} (ht : q.type = prop.type)
    (hi : q.initial = prop.initial) :
    FlatMember.marked source (.field ((m.mappedAs access kind).backingField n q)) =
      .field (m.storage n prop) := by
  unfold FlatMember.marked MappedMember.backingField storage
  rw [ht, hi]
  rfl

theorem marked_expandProperty {prop : Property} {q : MappedProperty} (ht : q.type = prop.type)
    (hi : q.initial = prop.initial) :
    ((m.mappedAs access kind).expandProperty n q).map (·.marked source) =
      (if m.special = some .abstract then [] else [.field (m.storage n prop)]) ++
        .method (m.reader n source prop q.getter) ::
          (q.setter.map fun writes => .method (m.writer n source prop writes)).toList := by
  unfold MappedMember.expandProperty
  rw [List.map_append, List.map_cons, marked_getter m n source access kind ht]
  congr 1
  · rw [isAbstract_mappedAs]
    by_cases ha : m.special = some .abstract
    · simp [ha]
    · simp [ha, marked_backingField m n source access kind ht hi]
  · cases q.setter with
    | none => rfl
    | some writes => simp [marked_setter m n source access kind ht]

end Member

/-- A member that gets its access levels is then expanded to what stands for it. -/
theorem Profile.expands_of_mapMember {p : Profile} {source : Signature → OverrideSource}
    {typeName : String} {m : Member} {a : MappedMember}
    (h : (p.mapMember typeName m).result = .ok a) :
    m.Expands p source ((a.expand p.naming).map (·.marked source)) := by
  obtain ⟨ha, -, -, hk, he⟩ := mapMember_ok_iff.mp h
  rw [he]
  generalize a.access = access at ha ⊢
  generalize a.kind = kind at hk ⊢
  unfold mapKind at hk
  cases hm : m.kind with
  | field f =>
    rw [hm] at hk
    obtain rfl := Logged.pure_ok_iff.mp hk
    exact .field hm ha
  | method x =>
    rw [hm] at hk
    obtain rfl := Logged.pure_ok_iff.mp hk
    simp only [MappedMember.expand, Member.kind_mappedAs, List.map_cons, List.map_nil,
      FlatMember.marked, Member.overrides_mappedAs, Member.isAbstract_mappedAs, decide_eq_true_eq]
    exact .method hm ha
  | constructor c =>
    rw [hm] at hk
    obtain rfl := Logged.pure_ok_iff.mp hk
    simp only [MappedMember.expand, Member.kind_mappedAs, List.map_cons, List.map_nil,
      FlatMember.marked, Member.overrides_mappedAs]
    exact .constructor hm ha
  | property prop =>
    rw [hm] at hk
    obtain ⟨q, hq, rfl⟩ := Logged.map_ok_iff.mp hk
    obtain ⟨hg, hs, ht, hi⟩ := mapProperty_ok_iff.mp hq
    have hexp : (m.mappedAs access (.property q)).expand p.naming =
        (m.mappedAs access (.property q)).expandProperty p.naming q := rfl
    rw [hexp, Member.marked_expandProperty m p.naming source access _ ht hi]
    cases hset : prop.setter with
    | none =>
      have hq' : q.setter = none := by simpa [hset] using hs.symm
      rw [hq']
      exact .readOnly hm hg hset
    | some acc =>
      rw [hset] at hs
      obtain ⟨writes, hq', hl⟩ := Option.map_eq_some_iff.mp hs.symm
      rw [hq']
      exact .readWrite hm hg hset hl.symm

/-- **The members of a class** are the concatenation of what stands for each declared member, in
order. -/
theorem members_of_resolved {p : Profile} {h : Option Hierarchy} {d : Decl} {m : Mapped} {f : Flat}
    {c : Resolved} (hm : (d.mapped p).result = .ok m)
    (hf : (Mapped.flattened m p.naming).result = .ok f)
    (hc : (Flat.resolved f h).result = .ok c) :
    ∃ parts, List.Forall₂ (Member.Expands p (Hierarchy.source h d.parents)) d.members parts ∧
      c.members = parts.flatten := by
  obtain ⟨-, -, hlevels, hm⟩ := Decl.mapped_ok_iff.mp hm
  obtain ⟨-, rfl⟩ := Mapped.flattened_ok_iff.mp hf
  obtain ⟨-, rfl⟩ := Flat.resolved_ok_iff.mp hc
  -- The parents are those of the declaration all along.
  have hparents : m.bases ++ m.capabilities = d.parents := by rw [hm]; rfl
  refine ⟨m.members.map fun a =>
    (a.expand p.naming).map (·.marked (Hierarchy.source h d.parents)), ?_, ?_⟩
  · rw [List.forall₂_map_right_iff]
    exact hlevels.imp fun x a hx => Profile.expands_of_mapMember hx
  · simp only [hparents, List.map_flatMap]
    rw [List.flatMap_def]

/-- A class with a member of each kind, and an abstract property that overrides another. -/
def accountDecl : Decl where
  name := "Account"
  special := some .abstract
  bases := ["Entity"]
  members := [
    { name := "limit",
      kind := .field { type := "int", initial := some "10", mutability := .readOnly } },
    { name := "Account", visibility := .pub,
      kind := .constructor { params := [⟨"owner", "string"⟩] } },
    { name := "Owner", visibility := .pub,
      kind := .property { type := "string", setter := some { visibility := some .prot } } },
    { name := "Key", visibility := .pub, isOverride := true, special := some .abstract,
      kind := .property { type := "long" } },
    { name := "Close", visibility := .pub, kind := .method { body := ["open = false;"] } }]

/-- A hierarchy in which the base of the class has a method of the name of an accessor. -/
def entityHierarchy : Hierarchy := Hierarchy.insertSignature {} "Entity" ⟨"getKey", []⟩

theorem members_of_resolved_account :
    ∃ m f c, (accountDecl.mapped .java).result = .ok m ∧
      (Mapped.flattened m Profile.java.naming).result = .ok f ∧
      (Flat.resolved f (some entityHierarchy)).result = .ok c ∧
      c.members.map (·.name) =
        ["limit", "Account", "ownerBackingField", "getOwner", "setOwner", "getKey", "close"] ∧
      ∃ parts, List.Forall₂
        (Member.Expands .java (Hierarchy.source (some entityHierarchy) accountDecl.parents))
        accountDecl.members parts ∧ c.members = parts.flatten := by
  have hbases : accountDecl.bases.length ≤ 1 := by decide
  refine ⟨_, _, _, rfl, rfl, Flat.resolved_ok_iff.mpr ⟨hbases, rfl⟩, by decide, ?_⟩
  exact members_of_resolved rfl rfl (Flat.resolved_ok_iff.mpr ⟨hbases, rfl⟩)

end ClassIdiom
