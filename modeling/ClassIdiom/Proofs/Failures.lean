import ClassIdiom.Proofs.LayoutChecks
import ClassIdiom.Proofs.NameTable

/-! # What each stage fails with

One statement for each stage: a failure of the first is due to a modifier of the type or of a member
(`Decl.mapped_error`), of the second to a name that a member asks for (`Mapped.flattened_error`), of
the third to several base types (`Flat.resolved_error_iff`), and of the last to a type that a member
mentions or to a static initializer that the target does not have (`Layout.fileText_error`). -/

namespace ClassIdiom

/-! ### Access levels -/

namespace Member

/-- The visibilities of a member and of its accessors. -/
def visibilities (m : Member) : List Visibility :=
  m.visibility ::
    match m.kind with
    | .property p =>
      p.getter.visibility.getD m.visibility ::
        (p.setter.map (·.visibility.getD m.visibility)).toList
    | _ => []

/-- The modifiers of a member, as they are spelled. -/
def modifiers (m : Member) : List String :=
  m.visibilities.map (·.spelling) ++ (m.special.map (·.spelling)).toList ++
    if m.isStatic then [Profile.staticModifier] else []

theorem spelling_mem_modifiers {m : Member} {v : Visibility} (h : v ∈ m.visibilities) :
    v.spelling ∈ m.modifiers := by
  unfold modifiers
  simp only [List.mem_append]
  exact Or.inl (Or.inl (List.mem_map_of_mem h))

end Member

/-- The modifiers of a type, as they are spelled. -/
def Decl.modifiers (d : Decl) : List String :=
  d.visibility.spelling :: (d.special.map (·.spelling)).toList

namespace Profile

variable {p : Profile} {typeName : String} {m : Member} {e : Failure}

theorem mapVisibility_error_iff {member : Option String} {v : Visibility} :
    (p.mapVisibility typeName member v).result = .error e ↔
      p.access? v = none ∧ ⟨typeName, member, .unmappable v.spelling⟩ = e := by
  unfold mapVisibility
  rw [Logged.bind_error_iff]
  simp only [result_lookUp, reduceCtorEq, Except.ok.injEq, exists_eq_left', false_or]
  cases p.access? v with
  | none => simp
  | some level => simp

/-- The failure is due to a modifier of the member. -/
def ModifierFailure (typeName : String) (m : Member) (e : Failure) : Prop :=
  ∃ word ∈ m.modifiers, ⟨typeName, some m.name, .unmappable word⟩ = e

/-- Each check of a member is on one of its modifiers. -/
theorem modifierFailure_of_mem_memberChecks {c : Check Failure}
    (hc : c ∈ p.memberChecks typeName m) : ModifierFailure typeName m c.error := by
  simp only [memberChecks, List.mem_cons, List.mem_append] at hc
  rcases hc with rfl | hc | hc | hc
  · exact ⟨_, Member.spelling_mem_modifiers (by simp [Member.visibilities]), rfl⟩
  · obtain ⟨s, hs, rfl⟩ := List.mem_map.mp hc
    refine ⟨s.spelling, by simp [Member.modifiers, Option.mem_toList.mp hs], ?_⟩
    cases m.kind <;> rfl
  · unfold staticChecks at hc
    split at hc
    · split at hc
      · next hstatic =>
        obtain rfl := List.mem_singleton.mp hc
        exact ⟨staticModifier, by simp [Member.modifiers, hstatic], rfl⟩
      · exact nomatch hc
    all_goals exact nomatch hc
  · unfold accessorChecks at hc
    split at hc
    · next q hk =>
      rcases List.mem_cons.mp hc with rfl | hc
      · exact ⟨_, Member.spelling_mem_modifiers (by simp [Member.visibilities, hk]), rfl⟩
      · obtain ⟨a, ha, rfl⟩ := List.mem_map.mp hc
        refine ⟨_, Member.spelling_mem_modifiers ?_, rfl⟩
        simp [Member.visibilities, hk, Option.mem_toList.mp ha]
    all_goals exact nomatch hc

end Profile

/-- **The first stage** fails on account of a modifier, of the type or of one of its members. -/
theorem Decl.mapped_error {d : Decl} {p : Profile} {e : Failure}
    (h : (d.mapped p).result = .error e) :
    (∃ word ∈ d.modifiers, ⟨d.name, none, .unmappable word⟩ = e) ∨
      ∃ m ∈ d.members, Profile.ModifierFailure d.name m e := by
  obtain ⟨c, hc, -, rfl⟩ := (d.performs_mapped p).exists_mem_of_error h
  simp only [checks, List.mem_cons, List.mem_append] at hc
  rcases hc with rfl | hc | hc
  · exact .inl ⟨_, by simp [modifiers], rfl⟩
  · obtain ⟨s, hs, rfl⟩ := List.mem_map.mp hc
    exact .inl ⟨s.spelling, by simp [modifiers, Option.mem_toList.mp hs], rfl⟩
  · obtain ⟨m, hm, hc⟩ := List.mem_flatMap.mp hc
    exact .inr ⟨m, hm, Profile.modifierFailure_of_mem_memberChecks hc⟩

/-! ### Expansion -/

/-- The names that are asked for in a request. -/
def Request.names (r : Request) : List String := r.field.toList ++ [r.accessor.name]

theorem NameTable.Refuses.mem_names {t : NameTable} {r : Request} {name : String} {o : Occupant}
    (h : t.Refuses r name o) : name ∈ r.names := by
  unfold Request.names
  rcases h with ⟨hf, -⟩ | ⟨rfl, -⟩
  · simp [hf]
  · simp

/-- **The second stage** fails on account of a name that a member asks for. -/
theorem Mapped.flattened_error {m : Mapped} {n : Naming} {e : Failure}
    (h : (Mapped.flattened m n).result = .error e) :
    ∃ a ∈ m.members, ∃ r ∈ a.requests n, ∃ name ∈ r.names, ∃ o,
      nameTaken m.name a.name name o = e := by
  obtain ⟨front, a, back, rs, r, rs', name, o, hl, hrequests, hrefuses, he⟩ :=
    NameTable.foldlM_claimGenerated_error (Mapped.flattened_error_iff.mp h)
  exact ⟨a, by simp [hl], r, by simp [hrequests], name, hrefuses.mem_names, o, he⟩

/-! ### Parents -/

/-- **The third stage** fails exactly if there are several base types. -/
theorem Flat.resolved_error_iff {f : Flat} {h : Option Hierarchy} {e : Failure} :
    (Flat.resolved f h).result = .error e ↔
      1 < f.bases.length ∧ ⟨f.name, none, .multipleBases f.bases⟩ = e := by
  by_cases hb : f.bases.length ≤ 1
  · have hok := Flat.resolved_ok_iff (h := h).mpr ⟨hb, rfl⟩
    rw [hok]
    simp [Nat.not_lt.mpr hb]
  · unfold resolved
    rw [Logged.bind_error_iff, Logged.require_error_iff]
    simp [Logged.require_ok_iff, hb, Nat.lt_of_not_le hb]

/-! ### Lines -/

namespace Layout

variable {l : Layout} {e : Failure}

/-- **A member** cannot be laid out on account of a type that it mentions, or because it is a static
initializer in a target without such. -/
theorem memberLines_error {m : FlatMember} (h : l.memberLines m = .error e) :
    (∃ type ∈ m.types, ⟨l.className, some m.reportName, .unknownType type⟩ = e) ∨
      m.isStaticInit = true ∧ l.style.staticInit = .unsupported := by
  obtain ⟨k, hk, hfailed, rfl⟩ := (performs_memberLines m).exists_mem_of_error h
  rcases List.mem_append.mp hk with hk | hk
  · obtain ⟨type, htype, rfl⟩ := List.mem_map.mp hk
    exact .inl ⟨type, htype, rfl⟩
  · split at hk
    · next hstatic =>
      rw [List.mem_singleton.mp hk] at hfailed
      exact .inr ⟨hstatic, passed_staticInitCheck.mp hfailed⟩
    · exact nomatch hk

/-- **The last stage** fails on account of one of the members. -/
theorem fileText_error {c : Resolved} (h : l.fileText c = .error e) :
    ∃ m ∈ c.members, { l with className := c.name }.memberLines m = .error e := by
  rw [fileText_eq] at h
  cases hm : c.members.mapM { l with className := c.name }.memberLines with
  | ok lines =>
    rw [hm] at h
    exact nomatch h
  | error e' =>
    rw [hm] at h
    obtain rfl : e' = e := Except.error.inj h
    obtain ⟨front, m, back, hl, -, hm⟩ := Logged.except_mapM_error_iff.mp hm
    exact ⟨m, by simp [hl], hm⟩

end Layout

end ClassIdiom
