import ClassIdiom.Profile.BuiltIn
import ClassIdiom.Proofs.Ancestors
import ClassIdiom.Proofs.Converted

/-! # When the mark of an accessor is confirmed

The accessors of an overriding property are marked as overriding, and their marks are looked up in
the hierarchy of known types like those of all methods. A hierarchy holds signatures as they are
declared, and an accessor has the name that the target gives it, but a declaration may well have a
method of that name.

So marks of accessors stay as declared exactly if no type that is reached from the parents declares
the signature of an accessor (`accessor_marks_declared_iff`), and they need not
(`accessor_mark_can_be_confirmed`). -/

namespace ClassIdiom

/-! ### What declarations give -/

namespace Decl

/-- One of the declarations gives a parent to a type. -/
def GivesParent (ds : List Decl) (child parent : String) : Prop :=
  ∃ k ∈ ds, k.name = child ∧ parent ∈ k.parents

/-- One of the declarations gives a type a method or a constructor with the signature. -/
def GivesSignature (ds : List Decl) (type : String) (s : Signature) : Prop :=
  ∃ k ∈ ds, k.name = type ∧ ∃ y ∈ k.members, y.signature? = some s

/-- **A signature is inherited**: a type that is reached from the given ones declares it. -/
def Inherits (ds : List Decl) (starts : List String) (s : Signature) : Prop :=
  ∃ a, Hierarchy.Reachable (GivesParent ds) starts a ∧ GivesSignature ds a s

end Decl

namespace Hierarchy

variable {ds : List Decl} {starts : List String} {s : Signature}

theorem ofDecls_eq (ds : List Decl) : ofDecls ds = ofInsertions (ds.map .decl) := by
  unfold ofDecls ofInsertions
  rw [List.foldl_map]
  rfl

theorem addsParent_decl_iff {child parent : String} :
    Insertion.AddsParent (ds.map .decl) child parent ↔ Decl.GivesParent ds child parent := by
  simp only [Insertion.AddsParent, Decl.GivesParent, List.mem_map, exists_exists_and_eq_and]
  rfl

theorem addsSignature_decl_iff {type : String} :
    Insertion.AddsSignature (ds.map .decl) type s ↔ Decl.GivesSignature ds type s := by
  have hmem : ∀ k : Decl,
      s ∈ (Insertion.decl k).signatures ↔ ∃ y ∈ k.members, y.signature? = some s :=
    fun k => List.mem_filterMap
  simp only [Insertion.AddsSignature, Decl.GivesSignature, List.mem_map, exists_exists_and_eq_and,
    hmem]
  rfl

/-- The search in the hierarchy of some declarations finds nothing exactly if the signature is not
inherited through them. -/
theorem declaring?_ofDecls_eq_none_iff :
    (ofDecls ds).declaring? starts s = none ↔ ¬ Decl.Inherits ds starts s := by
  have hlink : Insertion.AddsParent (ds.map .decl) = Decl.GivesParent ds := by
    funext child parent
    exact propext addsParent_decl_iff
  have hdeclared : Insertion.Declared (ds.map .decl) starts s ↔ Decl.Inherits ds starts s := by
    unfold Insertion.Declared Decl.Inherits
    simp only [addsSignature_decl_iff, hlink, and_comm]
  rw [ofDecls_eq, declaring?_ofInsertions_eq_none_iff, hdeclared]

theorem confirmed_source_ofDecls_iff :
    (∃ a, source (some (ofDecls ds)) starts s = .confirmed a) ↔ Decl.Inherits ds starts s := by
  rw [← not_iff_not, ← declaring?_ofDecls_eq_none_iff]
  unfold source
  rw [Option.bind_some]
  cases (ofDecls ds).declaring? starts s with
  | none => simp
  | some a => simp

end Hierarchy

/-! ### Accessors of a property -/

namespace Member

variable {y : Member} {p : Profile} {source : Signature → OverrideSource} {part : List FlatMember}

/-- The signatures of the accessors that a member generates. -/
def accessorSignatures (y : Member) (n : Naming) : List Signature :=
  match y.kind with
  | .property prop =>
    ⟨n.getter y.name, []⟩ :: prop.setter.toList.map fun _ => ⟨n.setter y.name, [prop.type]⟩
  | .field _ | .method _ | .constructor _ => []

/-- An accessor among the class members that stand for a declared one has a signature that the
declared one generates, and its mark. -/
theorem Expands.of_accessor (h : y.Expands p source part) {x : FlatMethod} {property : String}
    (hx : .method x ∈ part) (ho : x.origin = .generated property) :
    x.signature ∈ y.accessorSignatures p.naming ∧ x.overrides = y.mark source x.signature := by
  unfold accessorSignatures
  cases h with
  | field _ _ | constructor _ _ => simp at hx
  | method _ _ =>
    obtain rfl := FlatMember.method.inj (List.mem_singleton.mp hx)
    exact nomatch ho
  | readOnly kind _ setter =>
    simp only [kind, setter]
    rcases eq_storage_or_mem _ _ hx with hx | hx
    · exact nomatch hx
    · obtain rfl := FlatMember.method.inj (List.mem_singleton.mp hx)
      exact ⟨List.mem_cons_self, rfl⟩
  | readWrite kind _ setter _ =>
    simp only [kind, setter]
    rcases eq_storage_or_mem _ _ hx with hx | hx
    · exact nomatch hx
    · simp only [List.mem_cons, FlatMember.method.injEq, List.not_mem_nil, or_false] at hx
      rcases hx with rfl | rfl
      · exact ⟨List.mem_cons_self, rfl⟩
      · exact ⟨List.mem_cons_of_mem _ List.mem_cons_self, rfl⟩

/-- Each signature that a member generates is that of an accessor. -/
theorem Expands.exists_accessor (h : y.Expands p source part) {s : Signature}
    (hs : s ∈ y.accessorSignatures p.naming) :
    ∃ x, .method x ∈ part ∧ x.origin = .generated y.name ∧ x.signature = s := by
  unfold accessorSignatures at hs
  cases h with
  | field kind _ | method kind _ | constructor kind _ =>
    rw [kind] at hs
    exact nomatch hs
  | @readOnly prop reads kind _ setter =>
    simp only [kind, setter] at hs
    obtain rfl := List.mem_singleton.mp hs
    exact ⟨y.reader p.naming source prop reads, by simp, rfl, rfl⟩
  | @readWrite prop _ reads writes kind _ setter _ =>
    simp only [kind, setter] at hs
    have hs' : s = ⟨p.naming.getter y.name, []⟩ ∨ s = ⟨p.naming.setter y.name, [prop.type]⟩ := by
      simpa using hs
    rcases hs' with rfl | rfl
    · exact ⟨y.reader p.naming source prop reads, by simp, rfl, rfl⟩
    · exact ⟨y.writer p.naming source prop writes, by simp, rfl, rfl⟩

/-- The mark of a member is confirmed exactly if the member overrides another and the hierarchy has
the signature. -/
theorem exists_confirmed_mark_iff {s : Signature} :
    (∃ a, y.mark source s = some (.confirmed a)) ↔
      y.isOverride = true ∧ ∃ a, source s = .confirmed a := by
  unfold mark
  cases y.isOverride <;> simp

end Member

/-! ### Marks in a class -/

/-- Some accessor of the class has a mark that is confirmed. -/
def Resolved.ConfirmsAccessor (c : Resolved) : Prop :=
  ∃ x property a, .method x ∈ c.members ∧ x.origin = .generated property ∧
    x.overrides = some (.confirmed a)

/-- **Marks of accessors stay as declared** exactly if no overriding property has an accessor whose
signature is inherited, that is, declared for a method or a constructor by a type that is reached
from the parents of the class. -/
theorem accessor_marks_declared_iff {p : Profile} {ds : List Decl} {d : Decl} {m : Mapped} {f : Flat}
    {c : Resolved} (hm : (d.mapped p).result = .ok m)
    (hf : (Mapped.flattened m p.naming).result = .ok f)
    (hc : (Flat.resolved f (some (Hierarchy.ofDecls ds))).result = .ok c) :
    ¬ c.ConfirmsAccessor ↔
      ∀ y ∈ d.members, y.isOverride = true → ∀ s ∈ y.accessorSignatures p.naming,
        ¬ Decl.Inherits ds d.parents s := by
  have hpasses :
      Converter.Passes { profile := p, hierarchy := some (Hierarchy.ofDecls ds) } d m f c :=
    ⟨hm, hf, hc⟩
  constructor
  · intro hnone y hy hoverride s hs hinherits
    obtain ⟨part, hexpands, hpart⟩ := hpasses.exists_part_of_declared hy
    obtain ⟨x, hx, horigin, rfl⟩ := hexpands.exists_accessor hs
    obtain ⟨-, hmark⟩ := hexpands.of_accessor hx horigin
    have hsource := Hierarchy.confirmed_source_ofDecls_iff.mpr hinherits
    obtain ⟨a, ha⟩ := Member.exists_confirmed_mark_iff.mpr ⟨hoverride, hsource⟩
    exact hnone ⟨x, y.name, a, hpart _ hx, horigin, hmark.trans ha⟩
  · rintro hnot ⟨x, property, a, hx, horigin, hconfirmed⟩
    obtain ⟨y, hy, part, hexpands, hxpart⟩ := hpasses.exists_expands_of_mem hx
    obtain ⟨hs, hmark⟩ := hexpands.of_accessor hxpart horigin
    obtain ⟨hoverride, hsource⟩ :=
      Member.exists_confirmed_mark_iff.mp ⟨a, hmark.symm.trans hconfirmed⟩
    exact hnot y hy hoverride _ hs (Hierarchy.confirmed_source_ofDecls_iff.mp hsource)

/-- A shape with a method of the given name. -/
def shapeWith (method : String) : Decl where
  name := "Shape"
  members := [{ name := method, visibility := .pub, kind := .method { result := "int" } }]

/-- A square whose area overrides that of a shape. -/
def squareDecl : Decl where
  name := "Square"
  bases := ["Shape"]
  members := [
    { name := "Area", visibility := .pub, isOverride := true,
      kind := .property { type := "int", setter := some { visibility := some .prot } } }]

/-- The shape has a method of the name of the property, and the marks stay as declared. -/
theorem accessor_marks_declared_square :
    ∃ m f c, (squareDecl.mapped .java).result = .ok m ∧
      (Mapped.flattened m Profile.java.naming).result = .ok f ∧
      (Flat.resolved f (some (Hierarchy.ofDecls [shapeWith "Area", squareDecl]))).result = .ok c ∧
      c.members.map (·.name) = ["areaBackingField", "getArea", "setArea"] ∧
      ¬ c.ConfirmsAccessor := by
  have hbases : squareDecl.bases.length ≤ 1 := by decide
  refine ⟨_, _, _, rfl, rfl, Flat.resolved_ok_iff.mpr ⟨hbases, rfl⟩, by decide, ?_⟩
  refine (accessor_marks_declared_iff (p := .java) (d := squareDecl) rfl rfl
    (Flat.resolved_ok_iff.mpr ⟨hbases, rfl⟩)).mpr ?_
  rintro y hy - s hs ⟨a, -, hgives⟩
  have hnowhere : ∀ y ∈ squareDecl.members, ∀ s ∈ y.accessorSignatures Profile.java.naming,
      ∀ k ∈ [shapeWith "Area", squareDecl], ∀ z ∈ k.members, z.signature? ≠ some s := by
    decide
  obtain ⟨k, hk, -, z, hz, hsignature⟩ := hgives
  exact hnowhere y hy s hs k hk z hz hsignature

/-- **The mark of an accessor can be confirmed**: here the shape has a method of the name that the
target gives to the getter. -/
theorem accessor_mark_can_be_confirmed :
    ∃ m f c, (squareDecl.mapped .java).result = .ok m ∧
      (Mapped.flattened m Profile.java.naming).result = .ok f ∧
      (Flat.resolved f (some (Hierarchy.ofDecls [shapeWith "getArea", squareDecl]))).result = .ok c ∧
      ∃ x, .method x ∈ c.members ∧ x.origin = .generated "Area" ∧
        x.overrides = some (.confirmed "Shape") := by
  have hbases : squareDecl.bases.length ≤ 1 := by decide
  have hfound : (Hierarchy.ofDecls [shapeWith "getArea", squareDecl]).declaring? ["Shape"]
      ⟨"getArea", []⟩ = some "Shape" := Hierarchy.search_of_mem rfl (by decide) _
  have hsource : Hierarchy.source (some (Hierarchy.ofDecls [shapeWith "getArea", squareDecl]))
      ["Shape"] ⟨"getArea", []⟩ = .confirmed "Shape" := by
    simp only [Hierarchy.source, Option.bind_some, hfound]
  refine ⟨_, _, _, rfl, rfl, Flat.resolved_ok_iff.mpr ⟨hbases, rfl⟩, _,
    List.mem_cons_of_mem _ List.mem_cons_self, rfl, ?_⟩
  exact congrArg some hsource

end ClassIdiom
