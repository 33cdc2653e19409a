import ClassIdiom.Proofs.Converted
import ClassIdiom.Proofs.GeneratedNames

/-! # Headings of accessors

The heading of a method is what a method that overrides it has to repeat: the result, the name and
the parameters as they are written. A property gets the same accessors whether it is abstract or
not, apart from their bodies. Only the heading of the getter looks at the body: a getter that reads
a field returns by reference, where the target has references, and one without a body does not.

`abstract_accessor_headings` compares the two; they agree exactly if the type of the property is
written alike by value and by reference. `abstract_getter_by_value` is a case where they do not. -/

namespace ClassIdiom

/-! ### Headings -/

/-- What is written of a method besides its body and its modifiers. -/
structure Heading where
  result : String
  name : String
  params : String
deriving DecidableEq, Repr

namespace Layout

variable {l : Layout}

/-- The heading of a method. -/
def heading (l : Layout) (x : FlatMethod) : Except Failure Heading := do
  let member := x.origin.reportName x.signature.name
  let result ← l.spell member x.result
  let params ← l.params member (!x.isStatic) x.params
  .ok ⟨l.resultType x result, x.name, params⟩

/-- The lines of a method below its heading. -/
def linesUnder (l : Layout) (x : FlatMethod) (h : Heading) : List Line :=
  let head := l.methodHead x (l.declarator h.name h.result h.params)
  Style.flush (l.methodDecorators x) ++
    match l.bodyLines x with
    | some body => l.style.block head body
    | none => Style.flush [head ++ l.style.terminator]

/-- A method is written under its heading, and can be written if it has one. -/
theorem methodLines_eq (x : FlatMethod) :
    l.methodLines x = (l.heading x).map (l.linesUnder x) := by
  unfold methodLines heading
  dsimp only
  cases l.spell (x.origin.reportName x.signature.name) x.result with
  | error e => rfl
  | ok result =>
    cases l.params (x.origin.reportName x.signature.name) (!x.isStatic) x.params <;> rfl

theorem spell_ok_iff {member type spelling : String} :
    l.spell member type = .ok spelling ↔ l.types.spell type = some spelling := by
  unfold spell
  cases l.types.spell type <;> simp

theorem heading_ok_iff {x : FlatMethod} {h : Heading} :
    l.heading x = .ok h ↔ ∃ result params,
      l.spell (x.origin.reportName x.signature.name) x.result = .ok result ∧
      l.params (x.origin.reportName x.signature.name) (!x.isStatic) x.params = .ok params ∧
      ⟨l.resultType x result, x.name, params⟩ = h := by
  unfold heading
  dsimp only
  simp only [Logged.except_bind_ok_iff, Except.ok.injEq, exists_and_left]

theorem exists_heading_of_memberLines {x : FlatMethod} {lines : List Line}
    (h : l.memberLines (.method x) = .ok lines) : ∃ k, l.heading x = .ok k := by
  have hlines : (l.heading x).map (l.linesUnder x) = .ok lines := by
    rw [← methodLines_eq]
    exact h
  cases hk : l.heading x with
  | error e => exact nomatch hk ▸ hlines
  | ok k => exact ⟨k, rfl⟩

theorem names_of_mapM_heading {xs : List FlatMethod} {hs : List Heading}
    (h : xs.mapM l.heading = .ok hs) : hs.map (·.name) = xs.map (·.name) := by
  rw [← List.forall₂_eq_eq_eq, List.forall₂_map_left_iff, List.forall₂_map_right_iff]
  refine (List.Forall₂.flip (Logged.except_mapM_ok_iff.mp h)).imp fun k x hk => ?_
  obtain ⟨result, params, -, -, rfl⟩ := heading_ok_iff.mp hk
  rfl

/-! ### Headings of the accessors of a property -/

variable {m : Member} {n : Naming} {source : Signature → OverrideSource} {prop : Property}
  {access : Access}

/-- The heading of a setter does not tell whether its property is abstract. -/
theorem heading_writer_congr {m' : Member} {source' : Signature → OverrideSource}
    {access' : Access} (hname : m'.name = m.name) (hstatic : m'.isStatic = m.isStatic) :
    l.heading (m'.writer n source' prop access') = l.heading (m.writer n source prop access) := by
  have hresult : ∀ (x : Member) (source : Signature → OverrideSource) (a : Access),
      l.resultType (x.writer n source prop a) = id := by
    intro x source a
    funext type
    by_cases hx : x.special = some .abstract <;> simp [resultType, Member.writer, hx]
  unfold heading
  simp only [hresult]
  simp only [Member.writer, hname, hstatic]

/-- The heading of a getter does: if its property is not abstract, the result is by reference. -/
theorem heading_reader_concrete {m' : Member} {source' : Signature → OverrideSource}
    {access' : Access} {h : Heading} (hname : m'.name = m.name) (hstatic : m'.isStatic = m.isStatic)
    (ha : m.special = some .abstract) (hc : m'.special ≠ some .abstract)
    (hh : l.heading (m.reader n source prop access) = .ok h) :
    l.heading (m'.reader n source' prop access') =
      .ok { h with result := l.style.referenced h.result } := by
  obtain ⟨type, params, htype, hparams, rfl⟩ := heading_ok_iff.mp hh
  refine heading_ok_iff.mpr ⟨type, params, ?_, ?_, ?_⟩
  · rw [← htype]
    simp [Member.reader, hname, Origin.reportName]
  · rw [← hparams]
    simp [Member.reader, hname, hstatic, Origin.reportName]
  · simp [resultType, Member.reader, hname, ha, hc]

/-- From abstract to concrete accessors only the result of the getter changes. -/
theorem mapM_heading_concrete {m' : Member} {source' : Signature → OverrideSource}
    {reads reads' writes writes' : Access} {getter : Heading} {setters : List Heading}
    (hname : m'.name = m.name) (hstatic : m'.isStatic = m.isStatic)
    (ha : m.special = some .abstract) (hc : m'.special ≠ some .abstract)
    (hh : (m.reader n source prop reads ::
      prop.setter.toList.map fun _ => m.writer n source prop writes).mapM l.heading =
        .ok (getter :: setters)) :
    (m'.reader n source' prop reads' ::
      prop.setter.toList.map fun _ => m'.writer n source' prop writes').mapM l.heading =
        .ok ({ getter with result := l.style.referenced getter.result } :: setters) := by
  rw [Logged.except_mapM_ok_iff, List.forall₂_cons, List.forall₂_map_left_iff] at hh ⊢
  refine ⟨heading_reader_concrete hname hstatic ha hc hh.1, hh.2.imp fun _ k hk => ?_⟩
  exact (heading_writer_congr hname hstatic).trans hk

theorem result_of_heading_reader {h : Heading} (ha : m.special = some .abstract)
    (hh : l.heading (m.reader n source prop access) = .ok h) :
    l.types.spell prop.type = some h.result := by
  obtain ⟨type, params, htype, -, rfl⟩ := heading_ok_iff.mp hh
  have hresult : l.resultType (m.reader n source prop access) type = type := by
    simp [resultType, Member.reader, ha]
  rw [hresult]
  exact spell_ok_iff.mp htype

end Layout

/-! ### The accessors of a property -/

/-- The member with the given special modifier. -/
def Member.withSpecial (m : Member) (special : Option Special) : Member := { m with special }

/-- The declaration with the given members. -/
def Decl.around (d : Decl) (before : List Member) (m : Member) (after : List Member) : Decl :=
  { d with members := before ++ m :: after }

/-- The method, if it is an accessor of the given property. -/
def FlatMember.accessor? (property : String) : FlatMember → Option FlatMethod
  | .method x => if x.origin = .generated property then some x else none
  | .field _ | .constructor _ => none

theorem FlatMember.accessor?_eq_some_iff {property : String} {z : FlatMember} {x : FlatMethod} :
    z.accessor? property = some x ↔ z = .method x ∧ x.origin = .generated property := by
  cases z with
  | field _ | constructor _ => simp [accessor?]
  | method z =>
    simp only [accessor?, Option.ite_none_right_eq_some, Option.some.injEq, method.injEq]
    constructor
    · rintro ⟨ho, rfl⟩
      exact ⟨rfl, ho⟩
    · rintro ⟨rfl, ho⟩
      exact ⟨ho, rfl⟩

/-- The accessors of a property in a class, in order. -/
def Resolved.accessors (c : Resolved) (property : String) : List FlatMethod :=
  c.members.filterMap (FlatMember.accessor? property)

theorem Member.Expands.accessors {p : Profile} {source : Signature → OverrideSource} {m : Member}
    {part : List FlatMember} {prop : Property} (h : m.Expands p source part)
    (hk : m.kind = .property prop) :
    ∃ reads writes, part.filterMap (FlatMember.accessor? m.name) =
      m.reader p.naming source prop reads ::
        prop.setter.toList.map fun _ => m.writer p.naming source prop writes := by
  cases h with
  | field kind _ | method kind _ | constructor kind _ => exact nomatch hk.symm.trans kind
  | @readOnly _ reads kind _ setter =>
    obtain rfl := MemberKind.property.inj (hk.symm.trans kind)
    refine ⟨reads, .priv, ?_⟩
    rw [setter, List.filterMap_append]
    split <;> simp [FlatMember.accessor?, reader]
  | @readWrite _ _ reads writes kind _ setter _ =>
    obtain rfl := MemberKind.property.inj (hk.symm.trans kind)
    refine ⟨reads, writes, ?_⟩
    rw [setter, List.filterMap_append]
    split <;> simp [FlatMember.accessor?, reader, writer]

namespace MappedMember

variable {n : Naming} {a b : MappedMember}

/-- What stands for another member holds no accessor of the property. -/
theorem filterMap_accessor?_eq_nil {property : String}
    (h : ∀ q, b.kind = .property q → b.name ≠ property) (source : Signature → OverrideSource) :
    ((b.expand n).map (·.marked source)).filterMap (FlatMember.accessor? property) = [] := by
  unfold expand
  cases hk : b.kind with
  | field _ | method _ | constructor _ => rfl
  | property q =>
    have hne := h q hk
    unfold expandProperty
    cases b.isAbstract <;> cases q.setter <;>
      simp [FlatMember.marked, FlatMember.accessor?, getter, setter, hne]

/-- Two properties of one name would ask for the same getter. -/
theorem property_name_ne {l before after : List MappedMember} {q q' : MappedProperty}
    (hp : (l.flatMap (·.requests n)).Pairwise Request.Apart) (hl : l = before ++ a :: after)
    (hb : b ∈ before ++ after) (ha : a.kind = .property q) (hb' : b.kind = .property q') :
    b.name ≠ a.name := by
  intro he
  have hfirst : ∀ {x : MappedMember} {p : MappedProperty}, x.kind = .property p →
      ∃ r ∈ x.requests n, r.accessor = Signature.of (n.getter x.name) [] := by
    intro x p hx
    unfold requests
    rw [hx]
    exact ⟨_, List.mem_cons_self, rfl⟩
  obtain ⟨r, hr, hra⟩ := hfirst ha
  obtain ⟨s, hs, hsa⟩ := hfirst hb'
  exact (apart_of_split hp hl hb hr hs).accessors (by rw [hra, hsa, he])

end MappedMember

namespace Converter

variable {t : Converter} {d : Decl} {m : Mapped} {f : Flat} {c : Resolved}
  {before after : List Member} {y : Member} {prop : Property}

/-- **The accessors of a property** in a class come from that property alone. -/
theorem Passes.accessors_eq (h : t.Passes d m f c) (hd : d.members = before ++ y :: after)
    (hk : y.kind = .property prop) :
    ∃ reads writes, c.accessors y.name =
      y.reader t.profile.naming (t.source d) prop reads ::
        prop.setter.toList.map fun _ => y.writer t.profile.naming (t.source d) prop writes := by
  obtain ⟨front, a, back, hm, ha⟩ := Logged.exists_split_of_forall₂ (hd ▸ h.levels)
  obtain ⟨-, hapart, -⟩ := Mapped.flattened_ok_iff_apart.mp h.flattened
  obtain ⟨-, -, -, hkind, hname⟩ := Profile.mapMember_ok_iff.mp ha
  have hname : a.name = y.name := by rw [hname]; rfl
  obtain ⟨q, hq⟩ : ∃ q, a.kind = .property q := by
    unfold Profile.mapKind at hkind
    rw [hk] at hkind
    obtain ⟨q, -, hq⟩ := Logged.map_ok_iff.mp hkind
    exact ⟨q, hq.symm⟩
  have hothers : ∀ b ∈ front ++ back,
      ((b.expand t.profile.naming).map (·.marked (t.source d))).filterMap
        (FlatMember.accessor? y.name) = [] := by
    intro b hb
    refine MappedMember.filterMap_accessor?_eq_nil (fun q' hq' => ?_) _
    rw [← hname]
    exact MappedMember.property_name_ne hapart hm hb hq hq'
  have hfront := List.flatMap_eq_nil_iff.mpr fun b hb => hothers b (List.mem_append_left _ hb)
  have hback := List.flatMap_eq_nil_iff.mpr fun b hb => hothers b (List.mem_append_right _ hb)
  obtain ⟨reads, writes, haccessors⟩ := (Profile.expands_of_mapMember ha).accessors hk
  refine ⟨reads, writes, ?_⟩
  unfold Resolved.accessors
  rw [h.members_eq, hm, List.filterMap_flatMap, List.flatMap_append, List.flatMap_cons, hfront,
    hback, haccessors, List.nil_append, List.append_nil]

/-- The headings of the accessors of a property in a class. -/
def accessorHeadings (t : Converter) (c : Resolved) (property : String) :
    Except Failure (List Heading) :=
  (c.accessors property).mapM (t.layout c).heading

theorem exists_accessorHeadings_of_emit {file : SourceFile} (h : t.emit c = .ok file)
    (property : String) : ∃ hs, t.accessorHeadings c property = .ok hs := by
  unfold accessorHeadings
  cases hall : (c.accessors property).mapM (t.layout c).heading with
  | ok hs => exact ⟨hs, rfl⟩
  | error e =>
    obtain ⟨front, x, back, hsplit, -, hx⟩ := Logged.except_mapM_error_iff.mp hall
    have hmem : x ∈ c.accessors property := by rw [hsplit]; simp
    obtain ⟨z, hz, hzx⟩ := List.mem_filterMap.mp hmem
    obtain ⟨rfl, -⟩ := FlatMember.accessor?_eq_some_iff.mp hzx
    obtain ⟨lines, hlines⟩ := exists_memberLines_of_emit h hz
    obtain ⟨k, hk⟩ := Layout.exists_heading_of_memberLines hlines
    exact nomatch hx.symm.trans hk

/-- **Accessors of abstract and of concrete properties** have the same headings but for the result
of the getter: it is the type of the property, written by value if the property is abstract and by
reference if not. So they agree exactly if the target writes the type alike in both ways. -/
theorem abstract_accessor_headings {fileA fileC : SourceFile} (hk : y.kind = .property prop)
    (ha : (t.convert (d.around before (y.withSpecial (some .abstract)) after)).result = .ok fileA)
    (hc : (t.convert (d.around before (y.withSpecial none) after)).result = .ok fileC) :
    ∃ a c getter setters,
      t.Reaches (d.around before (y.withSpecial (some .abstract)) after) (.resolved a) ∧
      t.emit a = .ok fileA ∧
      t.Reaches (d.around before (y.withSpecial none) after) (.resolved c) ∧
      t.emit c = .ok fileC ∧
      t.accessorHeadings a y.name = .ok (getter :: setters) ∧
      t.accessorHeadings c y.name = .ok
        ({ getter with result := t.profile.style.referenced getter.result } :: setters) ∧
      (getter :: setters).map (·.name) = t.profile.naming.getter y.name ::
        prop.setter.toList.map (fun _ => t.profile.naming.setter y.name) ∧
      (t.typeNames a).spell prop.type = some getter.result ∧
      (t.accessorHeadings a y.name = t.accessorHeadings c y.name ↔
        t.profile.style.referenced getter.result = getter.result) := by
  obtain ⟨mA, fA, a, hpa, hea⟩ := convert_ok_iff.mp ha
  obtain ⟨mC, fC, c, hpc, hec⟩ := convert_ok_iff.mp hc
  -- Both classes are laid out with the same types.
  have hlayout : t.layout c = t.layout a := hpc.layout_eq.trans hpa.layout_eq.symm
  obtain ⟨reads, writes, haccA⟩ := hpa.accessors_eq (y := y.withSpecial (some .abstract)) rfl hk
  obtain ⟨reads', writes', haccC⟩ := hpc.accessors_eq (y := y.withSpecial none) rfl hk
  change a.accessors y.name = _ at haccA
  change c.accessors y.name = _ at haccC
  obtain ⟨hs, hA⟩ := exists_accessorHeadings_of_emit hea y.name
  have hnames : hs.map (·.name) = (a.accessors y.name).map (·.name) :=
    Layout.names_of_mapM_heading hA
  have hall := hA
  unfold accessorHeadings at hall
  rw [haccA] at hall
  obtain ⟨getter, setters, hgetter, -, rfl⟩ :=
    List.forall₂_cons_left_iff.mp (Logged.except_mapM_ok_iff.mp hall)
  have hC : t.accessorHeadings c y.name = .ok
      ({ getter with result := t.profile.style.referenced getter.result } :: setters) := by
    unfold accessorHeadings
    rw [haccC, hlayout]
    exact Layout.mapM_heading_concrete (m := y.withSpecial (some .abstract)) rfl rfl rfl
      (by simp [Member.withSpecial]) hall
  refine ⟨a, c, getter, setters, hpa.reaches, hea, hpc.reaches, hec, hA, hC, ?_, ?_, ?_⟩
  · rw [hnames, haccA]
    simp [Member.reader, Member.writer, Member.withSpecial]
  · exact Layout.result_of_heading_reader rfl hgetter
  · rw [hA, hC]
    constructor
    · intro he
      exact (congrArg Heading.result (List.cons.inj (Except.ok.inj he)).1).symm
    · intro he
      rw [he]

/-- The converter to C++, with nothing else known. -/
def plainCpp : Converter where
  profile := .cpp

/-- A text that all may read and heirs may write. -/
def nameProperty : Property :=
  { type := "string", setter := some { visibility := some .prot } }

/-- An abstract class with room for a property between a field and a method. -/
def namedDecl (special : Option Special) : Decl :=
  Decl.around { name := "Named", special := some .abstract }
    [{ name := "age", kind := .field { type := "int" } }]
    (Member.withSpecial
      { name := "Name", visibility := .pub, kind := .property nameProperty } special)
    [{ name := "Reset", visibility := .pub, kind := .method {} }]

theorem converts_namedDecl {special : Option Special}
    (h : special = none ∨ special = some .abstract) :
    ∃ file, (plainCpp.convert (namedDecl special)).result = .ok file := by
  rcases h with rfl | rfl
  · exact ⟨_, convert_ok_iff.mpr ⟨_, _, _, ⟨rfl, rfl, rfl⟩, emit_ok_iff.mpr ⟨_, rfl, rfl⟩⟩⟩
  · exact ⟨_, convert_ok_iff.mpr ⟨_, _, _, ⟨rfl, rfl, rfl⟩, emit_ok_iff.mpr ⟨_, rfl, rfl⟩⟩⟩

theorem abstract_accessor_headings_named :
    ∃ fileA fileC, (plainCpp.convert (namedDecl (some .abstract))).result = .ok fileA ∧
      (plainCpp.convert (namedDecl none)).result = .ok fileC ∧
      ∃ a c getter setters,
        plainCpp.Reaches (namedDecl (some .abstract)) (.resolved a) ∧
        plainCpp.emit a = .ok fileA ∧
        plainCpp.Reaches (namedDecl none) (.resolved c) ∧ plainCpp.emit c = .ok fileC ∧
        plainCpp.accessorHeadings a "Name" = .ok (getter :: setters) ∧
        plainCpp.accessorHeadings c "Name" = .ok
          ({ getter with result := Profile.cpp.style.referenced getter.result } :: setters) ∧
        (getter :: setters).map (·.name) = Profile.cpp.naming.getter "Name" ::
          nameProperty.setter.toList.map (fun _ => Profile.cpp.naming.setter "Name") ∧
        (plainCpp.typeNames a).spell "string" = some getter.result ∧
        (plainCpp.accessorHeadings a "Name" = plainCpp.accessorHeadings c "Name" ↔
          Profile.cpp.style.referenced getter.result = getter.result) := by
  obtain ⟨fileA, hA⟩ := converts_namedDecl (.inr rfl)
  obtain ⟨fileC, hC⟩ := converts_namedDecl (.inl rfl)
  exact ⟨fileA, fileC, hA, hC, abstract_accessor_headings rfl hA hC⟩

/-- **The getter of an abstract property need not match** the one that overrides it: in C++ the
former returns a text by value, the latter by reference. -/
theorem abstract_getter_by_value :
    ∃ fileA fileC a c, (plainCpp.convert (namedDecl (some .abstract))).result = .ok fileA ∧
      plainCpp.Reaches (namedDecl (some .abstract)) (.resolved a) ∧
      (plainCpp.convert (namedDecl none)).result = .ok fileC ∧
      plainCpp.Reaches (namedDecl none) (.resolved c) ∧
      plainCpp.accessorHeadings a "Name" = .ok [⟨"std::string", "getName", ""⟩,
        ⟨"void", "setName", "const std::string& value"⟩] ∧
      plainCpp.accessorHeadings c "Name" = .ok [⟨"const std::string&", "getName", ""⟩,
        ⟨"void", "setName", "const std::string& value"⟩] := by
  obtain ⟨fileA, hA⟩ := converts_namedDecl (.inr rfl)
  obtain ⟨fileC, hC⟩ := converts_namedDecl (.inl rfl)
  refine ⟨fileA, fileC, _, _, hA, Passes.reaches ⟨rfl, rfl, rfl⟩, hC,
    Passes.reaches ⟨rfl, rfl, rfl⟩, ?_, ?_⟩
  · decide
  · decide

end Converter

end ClassIdiom
