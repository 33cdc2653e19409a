import ClassIdiom.Proofs.AccessorHeadings
import ClassIdiom.Proofs.OverrideSources
import ClassIdiom.Profile.Overlay

/-! # The visibility of a property itself

The accessors of a property may all have visibilities of their own. Then the visibility of the
property is looked up in the first stage and goes no further: the level that it gets stands in the
mapped class, and the second stage does not read it. `Mapped.veiled` takes the levels of properties
out of a mapped class; `flattened_veiled` says that the second stage does not see this.

So the visibility of the property cannot show in the file. It can still be refused, as that of any
other member, where the profile has no level for it: `convert_own_visibility` tells the two cases
apart, and `own_visibility_can_decide` is one of the second kind. -/

namespace ClassIdiom

/-! ### Levels that are not read -/

/-- The member, with the level of the property taken out if it is one. -/
def MappedMember.veiled (a : MappedMember) : MappedMember :=
  match a.kind with
  | .property _ => { a with access := .priv }
  | .field _ | .method _ | .constructor _ => a

/-- The class without the levels of its properties. -/
def Mapped.veiled (m : Mapped) : Mapped := { m with members := m.members.map (·.veiled) }

namespace MappedMember

variable (a : MappedMember) (n : Naming)

/-- A veiled member differs from the member at most by the level of a property. -/
theorem veiled_cases :
    a.veiled = a ∨ ∃ q, a.kind = .property q ∧ a.veiled = { a with access := .priv } := by
  unfold veiled
  cases hk : a.kind with
  | property q => exact .inr ⟨q, rfl, rfl⟩
  | field _ | method _ | constructor _ => exact .inl rfl

theorem expand_veiled : a.veiled.expand n = a.expand n := by
  rcases a.veiled_cases with h | ⟨q, hk, h⟩
  · rw [h]
  · rw [h]
    unfold expand
    simp only [hk]
    rfl

theorem claimDeclared_veiled (t : NameTable) :
    NameTable.claimDeclared n t a.veiled = NameTable.claimDeclared n t a := by
  rcases a.veiled_cases with h | ⟨q, hk, h⟩
  · rw [h]
  · rw [h]
    unfold NameTable.claimDeclared
    simp only [hk]

theorem claimGenerated_veiled (typeName : String) (t : NameTable) :
    NameTable.claimGenerated n typeName t a.veiled = NameTable.claimGenerated n typeName t a := by
  rcases a.veiled_cases with h | ⟨q, hk, h⟩
  · rw [h]
  · rw [h]
    unfold NameTable.claimGenerated
    simp only [hk]
    rfl

end MappedMember

/-- **The second stage** does not read the levels of properties. -/
theorem Mapped.flattened_veiled (m : Mapped) (n : Naming) :
    Mapped.flattened (Mapped.veiled m) n = Mapped.flattened m n := by
  have hdeclared : NameTable.declared n (m.members.map (·.veiled)) =
      NameTable.declared n m.members := by
    unfold NameTable.declared
    rw [List.foldl_map]
    simp only [MappedMember.claimDeclared_veiled]
  have hgenerated : ∀ t, (m.members.map (·.veiled)).foldlM (NameTable.claimGenerated n m.name) t =
      m.members.foldlM (NameTable.claimGenerated n m.name) t := by
    intro t
    rw [List.foldlM_map]
    simp only [MappedMember.claimGenerated_veiled]
  have hmembers : (m.members.map (·.veiled)).flatMap (·.expand n) =
      m.members.flatMap (·.expand n) := by
    rw [List.flatMap_map]
    simp only [MappedMember.expand_veiled]
  unfold flattened veiled
  simp only [hdeclared, hgenerated, hmembers]

/-- A conversion does not read them either, once they are found. -/
theorem Converter.result_convert_veiled (t : Converter) (d : Decl) :
    (t.convert d).result = (do
      let m ← ((d.mapped t.profile).result.map Mapped.veiled).mapError (.mk .mapping)
      let f ← (Mapped.flattened m t.profile.naming).result.mapError (.mk .expansion)
      if f.bases.length ≤ 1 then (t.emit f.adopted).mapError (.mk .emission)
      else .error ⟨.inheritance, f.name, none, .multipleBases f.bases⟩) := by
  rw [result_convert_adopted]
  cases (d.mapped t.profile).result with
  | error e => rfl
  | ok m =>
    simp only [Except.map, Except.mapError, bind, Except.bind, Mapped.flattened_veiled]

/-! ### One property among others -/

/-- The member with the given visibility. -/
def Member.withVisibility (m : Member) (visibility : Visibility) : Member := { m with visibility }

/-- All accessors of the property have visibilities of their own. -/
def Property.OwnVisibilities (p : Property) : Prop :=
  p.getter.visibility.isSome ∧ ∀ a, p.setter = some a → a.visibility.isSome

theorem Accessor.resolve_eq {a : Accessor} (h : a.visibility.isSome) (v v' : Visibility) :
    a.resolve v = a.resolve v' := by
  obtain ⟨w, hw⟩ := Option.isSome_iff_exists.mp h
  unfold resolve
  rw [hw]
  rfl

namespace Profile

variable {p : Profile} {typeName : String} {y : Member} {prop : Property}

theorem mapKind_withVisibility (hk : y.kind = .property prop) (hp : prop.OwnVisibilities)
    (v v' : Visibility) :
    p.mapKind typeName (y.withVisibility v) = p.mapKind typeName (y.withVisibility v') := by
  have hgetter := Accessor.resolve_eq hp.1 v v'
  unfold mapKind Member.withVisibility
  simp only [hk]
  unfold mapProperty
  simp only [hgetter]
  cases hs : prop.setter with
  | none => rfl
  | some a => simp only [Accessor.resolve_eq (hp.2 a hs) v v']

theorem exists_of_mapKind_ok {k : MappedKind} (hk : y.kind = .property prop)
    (h : (p.mapKind typeName y).result = .ok k) : ∃ q, k = .property q := by
  unfold mapKind at h
  rw [hk] at h
  obtain ⟨q, -, hq⟩ := Logged.map_ok_iff.mp h
  exact ⟨q, hq.symm⟩

theorem result_mapMember_of_level {m : Member} {level : Access}
    (h : p.access? m.visibility = some level) :
    (p.mapMember typeName m).result = (do
      (p.checkSpecial typeName m).result
      (p.checkStatic typeName m).result
      let kind ← (p.mapKind typeName m).result
      .ok (m.mappedAs level kind)) := by
  have hlevel : (p.mapVisibility typeName (some m.name) m.visibility).result = .ok level :=
    mapVisibility_ok_iff.mpr h
  unfold mapMember
  simp only [Logged.result_bind, hlevel]
  rfl

theorem result_mapMember_of_no_level {m : Member} (h : p.access? m.visibility = none) :
    (p.mapMember typeName m).result =
      .error ⟨typeName, some m.name, .unmappable m.visibility.spelling⟩ := by
  have hlevel : (p.mapVisibility typeName (some m.name) m.visibility).result =
      .error ⟨typeName, some m.name, .unmappable m.visibility.spelling⟩ :=
    mapVisibility_error_iff.mpr ⟨h, rfl⟩
  unfold mapMember
  rw [Logged.result_bind, hlevel]
  rfl

/-- Two visibilities that have levels make no difference to the property, its own level aside. -/
theorem mapMember_withVisibility (hk : y.kind = .property prop) (hp : prop.OwnVisibilities)
    {v v' : Visibility} (hv : (p.access? v).isSome) (hv' : (p.access? v').isSome) :
    (p.mapMember typeName (y.withVisibility v)).result.map (·.veiled) =
      (p.mapMember typeName (y.withVisibility v')).result.map (·.veiled) := by
  obtain ⟨level, hlevel⟩ := Option.isSome_iff_exists.mp hv
  obtain ⟨level', hlevel'⟩ := Option.isSome_iff_exists.mp hv'
  rw [result_mapMember_of_level (m := y.withVisibility v) hlevel,
    result_mapMember_of_level (m := y.withVisibility v') hlevel',
    mapKind_withVisibility hk hp v v']
  -- The checks do not look at the visibility.
  change Except.map _ ((p.checkSpecial typeName y).result >>= fun _ =>
      (p.checkStatic typeName y).result >>= fun _ => _) =
    Except.map _ ((p.checkSpecial typeName y).result >>= fun _ =>
      (p.checkStatic typeName y).result >>= fun _ => _)
  cases (p.checkSpecial typeName y).result with
  | error e => rfl
  | ok _ =>
    cases (p.checkStatic typeName y).result with
    | error e => rfl
    | ok _ =>
      cases hkind : (p.mapKind typeName (y.withVisibility v')).result with
      | error e => rfl
      | ok k =>
        obtain ⟨q, rfl⟩ := exists_of_mapKind_ok (y := y.withVisibility v') hk hkind
        rfl

end Profile

/-- The first stage, with the levels of properties taken out member by member. -/
theorem Decl.result_mapped_veiled (d : Decl) (p : Profile) :
    (d.mapped p).result.map Mapped.veiled = (do
      let access ← (p.mapVisibility d.name none d.visibility).result
      (p.checkClassSpecial d.name d.special).result
      let members ← d.members.mapM fun x => (p.mapMember d.name x).result.map (·.veiled)
      .ok ⟨d.name, access, d.special, d.container, d.imports, d.bases, d.capabilities.toList,
        members⟩) := by
  unfold mapped
  simp only [Logged.result_bind, Logged.result_mapM, Logged.result_pure, ← Logged.except_map_mapM]
  cases (p.mapVisibility d.name none d.visibility).result with
  | error e => rfl
  | ok access =>
    cases (p.checkClassSpecial d.name d.special).result with
    | error e => rfl
    | ok _ => cases d.members.mapM fun x => (p.mapMember d.name x).result <;> rfl

namespace Converter

variable {t : Converter} {d : Decl} {before after : List Member} {y : Member} {prop : Property}

theorem convert_of_mapped_error {e : Failure}
    (h : (d.mapped t.profile).result.map Mapped.veiled = .error e) :
    (t.convert d).result = .error ⟨.mapping, e⟩ := by
  rw [result_convert_veiled, h]
  rfl

theorem mapped_withVisibility_eq (hk : y.kind = .property prop) (hp : prop.OwnVisibilities)
    {v v' : Visibility} (hv : (t.profile.access? v).isSome) (hv' : (t.profile.access? v').isSome) :
    ((d.around before (y.withVisibility v) after).mapped t.profile).result.map Mapped.veiled =
      ((d.around before (y.withVisibility v') after).mapped t.profile).result.map
        Mapped.veiled := by
  rw [Decl.result_mapped_veiled, Decl.result_mapped_veiled]
  simp only [Decl.around, List.mapM_append, List.mapM_cons,
    Profile.mapMember_withVisibility hk hp hv hv']

/-- A visibility without a level is refused, unless something before it is refused in any case. -/
theorem mapped_withVisibility_error {v : Visibility} (hv : t.profile.access? v = none) :
    ((d.around before (y.withVisibility v) after).mapped t.profile).result.map Mapped.veiled =
        .error ⟨d.name, some y.name, .unmappable v.spelling⟩ ∨
      ∃ e, ∀ v', ((d.around before (y.withVisibility v') after).mapped t.profile).result.map
        Mapped.veiled = .error e := by
  have hmember : (t.profile.mapMember d.name (y.withVisibility v)).result =
      .error ⟨d.name, some y.name, .unmappable v.spelling⟩ :=
    Profile.result_mapMember_of_no_level (m := y.withVisibility v) hv
  simp only [Decl.result_mapped_veiled, Decl.around, List.mapM_append, List.mapM_cons, hmember]
  cases (t.profile.mapVisibility d.name none d.visibility).result with
  | error e => exact .inr ⟨e, fun _ => rfl⟩
  | ok _ =>
    cases (t.profile.checkClassSpecial d.name d.special).result with
    | error e => exact .inr ⟨e, fun _ => rfl⟩
    | ok _ =>
      cases before.mapM fun x => (t.profile.mapMember d.name x).result.map (·.veiled) with
      | error e => exact .inr ⟨e, fun _ => rfl⟩
      | ok _ => exact .inl rfl

/-- **The visibility of a property itself** does not matter if its accessors have visibilities of
their own, as long as the profile has a level for it: with any two such visibilities the conversion
gives the same file, or the same failure. A visibility without a level is refused in the first
stage, as it is on any member; where another failure comes first, it comes with all visibilities. -/
theorem convert_own_visibility (hk : y.kind = .property prop) (hp : prop.OwnVisibilities) :
    (∀ v v', (t.profile.access? v).isSome → (t.profile.access? v').isSome →
      (t.convert (d.around before (y.withVisibility v) after)).result =
        (t.convert (d.around before (y.withVisibility v') after)).result) ∧
    ∀ v, t.profile.access? v = none →
      (t.convert (d.around before (y.withVisibility v) after)).result =
          .error ⟨.mapping, d.name, some y.name, .unmappable v.spelling⟩ ∨
        ∃ e, ∀ v', (t.convert (d.around before (y.withVisibility v') after)).result =
          .error ⟨.mapping, e⟩ := by
  refine ⟨fun v v' hv hv' => ?_, fun v hv => ?_⟩
  · rw [result_convert_veiled, result_convert_veiled, mapped_withVisibility_eq hk hp hv hv']
  · rcases mapped_withVisibility_error hv with h | ⟨e, h⟩
    · exact .inl (convert_of_mapped_error h)
    · exact .inr ⟨e, fun v' => convert_of_mapped_error (h v')⟩

/-- An overlay for C++ that refuses visibilities without a level of their own. -/
def strictOverlay : Overlay where
  target := "cpp"
  fallback := some .reject

/-- The converter to C++ that the overlay gives. -/
def strictCpp : Converter where
  profile := { Profile.cpp with fallback := .reject }

/-- What all may read and heirs may write. -/
def openProperty : Property where
  type := "bool"
  getter := { visibility := some .pub }
  setter := some { visibility := some .prot }

/-- A class with a property of the given visibility. -/
def doorDecl (v : Visibility) : Decl :=
  Decl.around { name := "Door" } []
    (Member.withVisibility { name := "Open", kind := .property openProperty } v) []

theorem ownVisibilities_openProperty : openProperty.OwnVisibilities :=
  ⟨rfl, fun _ ha => Option.some.inj ha ▸ rfl⟩

theorem converts_doorDecl : ∃ file, (strictCpp.convert (doorDecl .pub)).result = .ok file :=
  ⟨_, convert_ok_iff.mpr ⟨_, _, _, ⟨rfl, rfl, rfl⟩, emit_ok_iff.mpr ⟨_, rfl, rfl⟩⟩⟩

theorem convert_own_visibility_door :
    openProperty.OwnVisibilities ∧
    (strictCpp.profile.access? .priv).isSome ∧ (strictCpp.profile.access? .pub).isSome ∧
    (∃ file, (strictCpp.convert (doorDecl .pub)).result = .ok file ∧
      (strictCpp.convert (doorDecl .priv)).result = .ok file) ∧
    strictCpp.profile.access? .internal = none ∧
    ((strictCpp.convert (doorDecl .internal)).result =
        .error ⟨.mapping, "Door", some "Open", .unmappable "internal"⟩ ∨
      ∃ e, ∀ v', (strictCpp.convert (doorDecl v')).result = .error ⟨.mapping, e⟩) := by
  obtain ⟨hsame, hrefused⟩ := @convert_own_visibility strictCpp { name := "Door" } [] []
    { name := "Open", kind := .property openProperty } openProperty rfl
    ownVisibilities_openProperty
  obtain ⟨file, hfile⟩ := converts_doorDecl
  have hpriv : (strictCpp.profile.access? .priv).isSome := by decide
  have hpub : (strictCpp.profile.access? .pub).isSome := by decide
  have hinternal : strictCpp.profile.access? .internal = none := by decide
  exact ⟨ownVisibilities_openProperty, hpriv, hpub,
    ⟨file, hfile, (hsame .priv .pub hpriv hpub).trans hfile⟩, hinternal,
    hrefused .internal hinternal⟩

/-- **The visibility of a property itself can decide** whether its class can be converted: here it
is refused although no accessor has it, and the class is converted with another one. -/
theorem own_visibility_can_decide :
    strictOverlay.apply = .ok strictCpp.profile ∧ openProperty.OwnVisibilities ∧
    (strictCpp.convert (doorDecl .internal)).result =
      .error ⟨.mapping, "Door", some "Open", .unmappable "internal"⟩ ∧
    ∃ file, (strictCpp.convert (doorDecl .pub)).result = .ok file := by
  refine ⟨by decide, ownVisibilities_openProperty, ?_, converts_doorDecl⟩
  exact convert_of_mapped_error rfl

end Converter

end ClassIdiom
