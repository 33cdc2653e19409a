import ClassIdiom.Proofs.Attribution
import ClassIdiom.Proofs.Converted
import ClassIdiom.Proofs.GeneratedNames

/-! # Methods that come to look alike

In a declaration methods may share a name if their parameters have other types, and apart from that
names are not shared (`Decl.Unambiguous`). On the way to the target the first letter of a method may
be lowered and types get their spellings, and neither is one-to-one. So two methods that differ in
the declaration may come out with one name and parameters that are spelled alike
(`overloads_can_merge`).

`convert_merged_overloads` says that there are no other reasons: the declared types of the
parameters differ, or both methods are declared and differ in name. Accessors are kept from both
kinds of methods by the names they request, declared methods from each other by the declaration,
whose methods are found again in the class one by one (`declared_methods_eq`). -/

namespace ClassIdiom

/-! ### Declarations without ambiguity -/

/-- The signature of a method. -/
def Member.methodSignature? (m : Member) : Option Signature :=
  match m.kind with
  | .method x => some (Signature.of m.name x.params)
  | .field _ | .property _ | .constructor _ => none

/-- Two members of a declaration can be told apart: methods by name or parameter types, all else by
name. Constructors need not be. -/
def Member.toldApart (a b : Member) : Bool :=
  match a.kind, b.kind with
  | .constructor _, _ | _, .constructor _ => true
  | .method x, .method y => Signature.of a.name x.params != Signature.of b.name y.params
  | _, _ => a.name != b.name

/-- **The members of a declaration can be told apart.** -/
def Decl.Unambiguous (d : Decl) : Prop := d.members.Pairwise fun a b => a.toldApart b = true

instance (d : Decl) : Decidable d.Unambiguous :=
  inferInstanceAs (Decidable (List.Pairwise _ _))

theorem Member.methodSignature?_ne {a b : Member} (h : a.toldApart b = true) {s s' : Signature}
    (ha : a.methodSignature? = some s) (hb : b.methodSignature? = some s') : s ≠ s' := by
  unfold methodSignature? at ha hb
  unfold toldApart at h
  cases hka : a.kind <;> cases hkb : b.kind <;> simp_all

theorem Decl.Unambiguous.nodup_methods {d : Decl} (h : d.Unambiguous) :
    (d.members.filterMap Member.methodSignature?).Nodup := by
  rw [List.Nodup, List.pairwise_filterMap]
  refine h.imp fun hab s hs s' hs' => ?_
  exact Member.methodSignature?_ne hab hs hs'

/-! ### Declared methods of a class -/

/-- The signature that a method of a class is declared with. -/
def FlatMember.declaredMethod? : FlatMember → Option Signature
  | .method x => if x.origin = .declared then some x.signature else none
  | .field _ | .constructor _ => none

namespace Member.Expands

variable {p : Profile} {source : Signature → OverrideSource} {m : Member} {part : List FlatMember}

theorem filterMap_declaredMethod? (h : m.Expands p source part) :
    part.filterMap FlatMember.declaredMethod? = m.methodSignature?.toList := by
  unfold methodSignature?
  cases h with
  | field kind _ | method kind _ | constructor kind _ => rw [kind]; rfl
  | readOnly kind _ _ | readWrite kind _ _ _ =>
    rw [kind]
    split <;> rfl

/-- A declared method keeps its parameters and gets its name from the one it is declared with. -/
theorem name_of_declared (h : m.Expands p source part) {x : FlatMethod}
    (hx : FlatMember.method x ∈ part) (ho : x.origin = .declared) :
    x.name = p.naming.method x.signature.name ∧
      x.signature = Signature.of x.signature.name x.params := by
  cases h with
  | field _ _ | constructor _ _ => simp at hx
  | method _ _ =>
    obtain rfl := FlatMember.method.inj (List.mem_singleton.mp hx)
    exact ⟨rfl, rfl⟩
  | readOnly _ _ _ =>
    rcases eq_storage_or_mem _ _ hx with hx | hx
    · exact nomatch hx
    · obtain rfl := FlatMember.method.inj (List.mem_singleton.mp hx)
      exact nomatch ho
  | readWrite _ _ _ _ =>
    rcases eq_storage_or_mem _ _ hx with hx | hx
    · exact nomatch hx
    · simp only [List.mem_cons, FlatMember.method.injEq, List.not_mem_nil, or_false] at hx
      rcases hx with rfl | rfl <;> exact nomatch ho

end Member.Expands

/-- Marks do not matter for what a method is told from others by. -/
theorem FlatMember.Distinct.marked {x y : FlatMember} (h : x.Distinct y)
    (source : Signature → OverrideSource) : (x.marked source).Distinct (y.marked source) := by
  intro u v hu hv ho
  cases x with
  | field _ | constructor _ => exact nomatch hu
  | method a =>
    cases y with
    | field _ | constructor _ => exact nomatch hv
    | method b =>
      obtain rfl := FlatMember.method.inj hu
      obtain rfl := FlatMember.method.inj hv
      exact h a b rfl rfl ho

namespace Converter

variable {t : Converter} {d : Decl} {m : Mapped} {f : Flat} {c : Resolved} {file : SourceFile}

/-- The declared methods of a class are those of its declaration, in order. -/
theorem Passes.declared_methods_eq (h : t.Passes d m f c) :
    c.members.filterMap FlatMember.declaredMethod? =
      d.members.filterMap Member.methodSignature? := by
  -- Member by member the declared methods are the same, so they are in the whole.
  have heach : d.members.map (·.methodSignature?.toList) = m.members.map fun a =>
      ((a.expand t.profile.naming).map (·.marked (t.source d))).filterMap
        FlatMember.declaredMethod? := by
    rw [← List.forall₂_eq_eq_eq, List.forall₂_map_left_iff, List.forall₂_map_right_iff]
    exact h.levels.imp fun x a hx =>
      (Profile.expands_of_mapMember hx).filterMap_declaredMethod?.symm
  rw [h.members_eq, List.filterMap_flatMap, List.flatMap_def, ← heach,
    List.filterMap_eq_flatMap_toList, List.flatMap_def]

theorem Passes.signature_ne_of_declared (h : t.Passes d m f c) (hd : d.Unambiguous) {i j : Nat}
    {x y : FlatMethod} (hx : c.members[i]? = some (.method x))
    (hy : c.members[j]? = some (.method y)) (hij : i ≠ j) (hxo : x.origin = .declared)
    (hyo : y.origin = .declared) : x.signature ≠ y.signature := by
  have hnodup := hd.nodup_methods
  rw [← h.declared_methods_eq, List.Nodup, List.pairwise_filterMap] at hnodup
  have hne := rel_of_pairwise hnodup (fun hxy s hs s' hs' => (hxy s' hs' s hs).symm) hx hy hij
  exact hne _ (by simp [FlatMember.declaredMethod?, hxo]) _
    (by simp [FlatMember.declaredMethod?, hyo])

theorem Passes.pairwise_distinct (h : t.Passes d m f c) :
    c.members.Pairwise FlatMember.Distinct := by
  rw [h.members_eq_map, List.pairwise_map]
  exact (pairwise_distinct_members h.flattened).imp fun hxy =>
    FlatMember.Distinct.marked hxy _

/-! ### Methods that look alike -/

/-- Two methods of a class look alike in the target: they have the same name, and the types of their
parameters have the same spellings. -/
def LookAlike (t : Converter) (c : Resolved) (x y : FlatMethod) : Prop :=
  x.name = y.name ∧ (x.params.map fun p => (t.typeNames c).spell p.type) =
    y.params.map fun p => (t.typeNames c).spell p.type

/-- At some place the parameters of two methods have different types with one spelling. -/
def MergedBySpelling (t : Converter) (c : Resolved) (x y : FlatMethod) : Prop :=
  ∃ (k : Nat) (u v : Parameter), x.params[k]? = some u ∧ y.params[k]? = some v ∧
    u.type ≠ v.type ∧ (t.typeNames c).spell u.type = (t.typeNames c).spell v.type

/-- Two methods are declared under different names, from which they get one. -/
def MergedByRenaming (t : Converter) (x y : FlatMethod) : Prop :=
  x.origin = .declared ∧ y.origin = .declared ∧
    x.name = t.profile.naming.method x.signature.name ∧
    y.name = t.profile.naming.method y.signature.name ∧ x.signature.name ≠ y.signature.name

/-- Two methods with one name and the same types of parameters are merged by renaming. -/
theorem Passes.mergedByRenaming (h : t.Passes d m f c) (hd : d.Unambiguous) {i j : Nat}
    {x y : FlatMethod} (hx : c.members[i]? = some (.method x))
    (hy : c.members[j]? = some (.method y)) (hij : i ≠ j)
    (he : Signature.of x.name x.params = Signature.of y.name y.params) :
    t.MergedByRenaming x y := by
  -- Were one of them generated, the class would not have been allowed.
  have hdistinct := rel_of_pairwise h.pairwise_distinct FlatMember.Distinct.symm hx hy hij
  have hdeclared : x.origin = .declared ∧ y.origin = .declared := by
    by_contra hgenerated
    exact hdistinct x y rfl rfl (by tauto) he
  obtain ⟨hxo, hyo⟩ := hdeclared
  obtain ⟨a, -, part, ha, hmem⟩ := h.exists_expands_of_mem (List.mem_of_getElem? hx)
  obtain ⟨b, -, part', hb, hmem'⟩ := h.exists_expands_of_mem (List.mem_of_getElem? hy)
  obtain ⟨hxn, hxs⟩ := ha.name_of_declared hmem hxo
  obtain ⟨hyn, hys⟩ := hb.name_of_declared hmem' hyo
  refine ⟨hxo, hyo, hxn, hyn, fun hnames => ?_⟩
  refine h.signature_ne_of_declared hd hx hy hij hxo hyo ?_
  have htypes : x.params.map (·.type) = y.params.map (·.type) := congrArg Signature.paramTypes he
  rw [hxs, hys]
  unfold Signature.of
  rw [hnames, htypes]

theorem exists_type_ne {xs ys : List Parameter} {spell : String → Option String}
    (hs : (xs.map fun p => spell p.type) = ys.map fun p => spell p.type)
    (ht : xs.map (·.type) ≠ ys.map (·.type)) :
    ∃ (k : Nat) (u v : Parameter), xs[k]? = some u ∧ ys[k]? = some v ∧ u.type ≠ v.type ∧
      spell u.type = spell v.type := by
  by_contra hnone
  refine ht (List.ext_getElem? fun k => ?_)
  have hk : (xs.map fun p => spell p.type)[k]? = (ys.map fun p => spell p.type)[k]? := by rw [hs]
  simp only [List.getElem?_map] at hk ⊢
  rcases hu : xs[k]? with _ | u <;> rcases hv : ys[k]? with _ | v
  · rfl
  · simp [hu, hv] at hk
  · simp [hu, hv] at hk
  · have hspell : spell u.type = spell v.type := by simpa [hu, hv] using hk
    have htype : u.type = v.type := by
      by_contra hne
      exact hnone ⟨k, u, v, hu, hv, hne, hspell⟩
    rw [Option.map_some, Option.map_some, htype]

/-- **Methods that come to look alike** have somewhere parameters of two types with one spelling, or
they are both declared, under different names that become one. So an accessor only ever comes to
look like another method by the spellings of types. -/
theorem convert_merged_overloads (hd : d.Unambiguous) (h : (t.convert d).result = .ok file) :
    ∃ c, t.Reaches d (.resolved c) ∧ t.emit c = .ok file ∧
      ∀ (i j : Nat) (x y : FlatMethod), i ≠ j → c.members[i]? = some (.method x) →
        c.members[j]? = some (.method y) → t.LookAlike c x y →
        t.MergedBySpelling c x y ∨ t.MergedByRenaming x y := by
  obtain ⟨m, f, c, hp, hfile⟩ := convert_ok_iff.mp h
  refine ⟨c, hp.reaches, hfile, ?_⟩
  rintro i j x y hij hx hy ⟨hname, hspelled⟩
  by_cases htypes : x.params.map (·.type) = y.params.map (·.type)
  · right
    refine hp.mergedByRenaming hd hx hy hij ?_
    unfold Signature.of
    rw [hname, htypes]
  · exact .inl (exists_type_ne hspelled htypes)

/-- A clock with a property whose setter is overloaded, and with an overloaded method. -/
def clockDecl : Decl where
  name := "Clock"
  members := [
    { name := "setTicks", kind := .method { params := [⟨"ticks", "ulong"⟩] } },
    { name := "Ticks", visibility := .pub, kind := .property { type := "uint", setter := some {} } },
    { name := "Start", kind := .method {} },
    { name := "Start", kind := .method { params := [⟨"delay", "int"⟩] } }]

theorem convert_merged_overloads_clock :
    clockDecl.Unambiguous ∧ ∃ file, (plainJava.convert clockDecl).result = .ok file ∧
      ∃ c, plainJava.Reaches clockDecl (.resolved c) ∧ plainJava.emit c = .ok file ∧
        (∀ (i j : Nat) (x y : FlatMethod), i ≠ j → c.members[i]? = some (.method x) →
          c.members[j]? = some (.method y) → plainJava.LookAlike c x y →
          plainJava.MergedBySpelling c x y ∨ plainJava.MergedByRenaming x y) ∧
        ∃ x y, c.members[0]? = some (.method x) ∧ c.members[3]? = some (.method y) ∧
          x.name = "setTicks" ∧ x.origin = .declared ∧ y.origin = .generated "Ticks" ∧
          plainJava.LookAlike c x y ∧ plainJava.MergedBySpelling c x y := by
  have hclock : clockDecl.Unambiguous := by decide
  have hpasses : plainJava.Passes clockDecl _ _ _ := ⟨rfl, rfl, rfl⟩
  have hfile := convert_ok_iff.mpr ⟨_, _, _, hpasses, emit_ok_iff.mpr ⟨_, rfl, rfl⟩⟩
  obtain ⟨c, hreaches, hemit, hmerged⟩ := convert_merged_overloads hclock hfile
  obtain ⟨m, f, hp⟩ := hreaches.attained
  obtain rfl := hp.unique hpasses
  refine ⟨hclock, _, hfile, _, hreaches, hemit, hmerged, _, _, rfl, rfl, rfl, rfl, rfl,
    (and_iff_left_of_imp fun hlook => ?_).mpr ⟨rfl, by decide⟩⟩
  rcases hmerged 0 3 _ _ (by decide) rfl rfl hlook with hspelling | hrenaming
  · exact hspelling
  · -- One of them is generated, so that they are not merged by renaming.
    exact nomatch hrenaming.2.1

/-- A gate with two methods whose names differ in the case of the first letter. -/
def gateDecl : Decl where
  name := "Gate"
  members := [{ name := "Open", kind := .method {} }, { name := "open", kind := .method {} }]

/-- A counter with a method for either of two types that have one spelling. -/
def counterDecl : Decl where
  name := "Counter"
  members := [
    { name := "add", kind := .method { params := [⟨"n", "uint"⟩] } },
    { name := "add", kind := .method { params := [⟨"n", "ulong"⟩] } }]

/-- A declaration can be converted, and its first two members are methods that come to look
alike. -/
def MergesFirstTwo (t : Converter) (d : Decl) : Prop :=
  ∃ file c x y, (t.convert d).result = .ok file ∧ t.Reaches d (.resolved c) ∧
    t.emit c = .ok file ∧ c.members[0]? = some (.method x) ∧ c.members[1]? = some (.method y) ∧
    t.LookAlike c x y

/-- **Methods can come to look alike** for either reason, though the declaration tells them
apart. -/
theorem overloads_can_merge :
    (gateDecl.Unambiguous ∧ plainJava.MergesFirstTwo gateDecl) ∧
      counterDecl.Unambiguous ∧ plainJava.MergesFirstTwo counterDecl := by
  refine ⟨⟨by decide, ?_⟩, by decide, ?_⟩
  · refine ⟨_, _, _, _, convert_ok_iff.mpr ⟨_, _, _, ⟨rfl, rfl, rfl⟩,
      emit_ok_iff.mpr ⟨_, rfl, rfl⟩⟩, Passes.reaches ⟨rfl, rfl, rfl⟩,
      emit_ok_iff.mpr ⟨_, rfl, rfl⟩, rfl, rfl, ?_, rfl⟩
    decide
  · refine ⟨_, _, _, _, convert_ok_iff.mpr ⟨_, _, _, ⟨rfl, rfl, rfl⟩,
      emit_ok_iff.mpr ⟨_, rfl, rfl⟩⟩, Passes.reaches ⟨rfl, rfl, rfl⟩,
      emit_ok_iff.mpr ⟨_, rfl, rfl⟩, rfl, rfl, rfl, ?_⟩
    decide

end Converter

end ClassIdiom
