import ClassIdiom.Proofs.Checks
import ClassIdiom.Proofs.MemberTexts

/-! # The checks of the last stage

A class is written if each type that its members mention has a spelling, and there is no static
initializer in a target without such. `Layout.memberChecks` lists these checks in the order in which
they are made: the result of a method before its parameters, the parameters from left to right. What
is wrong with a member is said without any order by `Layout.Unwritable`.

* `Layout.classText_fails_first_check`: a class and its file cannot be written exactly if one of the
  members is unwritable, and the failure is that of the first check which is not passed. -/

namespace ClassIdiom

namespace FlatMember

/-- **The name to report for a member**: for a generated one that of its property, for any other the
one it is declared with. -/
def reportName : FlatMember → String
  | field f =>
    match f.origin with
    | .generated property => property
    | .declared => f.name
  | method m =>
    match m.origin with
    | .generated property => property
    | .declared => m.signature.name
  | constructor c => c.signature.name

theorem reportName_field (f : FlatField) :
    (field f).reportName = f.origin.reportName f.name := by
  rw [reportName]
  cases f.origin <;> rfl

theorem reportName_method (m : FlatMethod) :
    (method m).reportName = m.origin.reportName m.signature.name := by
  rw [reportName]
  cases m.origin <;> rfl

/-- The types that a member mentions where it is written. -/
def types : FlatMember → List String
  | field f => [f.type]
  | method m => m.result :: m.params.map (·.type)
  | constructor c => if c.isStatic then [] else c.params.map (·.type)

theorem mem_types_constructor {c : FlatConstructor} {type : String}
    (h : type ∈ (constructor c).types) : type ∈ c.params.map (·.type) := by
  rw [types] at h
  split at h
  · exact nomatch h
  · exact h

/-- The member is a static initializer. -/
def isStaticInit : FlatMember → Bool
  | constructor c => c.isStatic
  | field _ | method _ => false

end FlatMember

namespace Layout

/-! ### Checks in order -/

/-- A type that a member mentions must have a spelling. -/
def spellCheck (l : Layout) (member type : String) : Check Failure where
  passed := (l.types.spell type).isSome
  error := ⟨l.className, some member, .unknownType type⟩

/-- There must be a way to write a static initializer. -/
def staticInitCheck (l : Layout) (member : String) : Check Failure where
  passed := l.style.staticInit ≠ .unsupported
  error := ⟨l.className, some member, .unmappable "static"⟩

/-- The checks of a member, in order. -/
def memberChecks (l : Layout) (m : FlatMember) : List (Check Failure) :=
  m.types.map (l.spellCheck m.reportName) ++
    if m.isStaticInit then [l.staticInitCheck m.reportName] else []

/-- The checks of a class, in order. -/
def checks (l : Layout) (c : Resolved) : List (Check Failure) :=
  c.members.flatMap { l with className := c.name }.memberChecks

variable {l : Layout}

theorem performs_spell (member type : String) :
    Performs [l.spellCheck member type] (l.spell member type) := by
  unfold spell spellCheck
  cases l.types.spell type with
  | none => exact rfl
  | some spelling => exact ⟨spelling, rfl⟩

theorem performs_params (member : String) (withReceiver : Bool) (ps : List Parameter) :
    Performs ((ps.map (·.type)).map (l.spellCheck member)) (l.params member withReceiver ps) := by
  have hparam : ∀ p, Performs [l.spellCheck member p.type] (l.param member p) :=
    fun p => (performs_spell member p.type).bind_ok _
  have hall := Performs.mapM hparam ps
  rw [← List.map_eq_flatMap] at hall
  rw [List.map_map]
  exact hall.bind_ok _

theorem performs_staticInitLines (c : FlatConstructor) :
    Performs [l.staticInitCheck c.signature.name] (l.staticInitLines c) := by
  unfold staticInitLines staticInitCheck
  cases l.style.staticInit with
  | block keyword => exact ⟨_, rfl⟩
  | classBody => cases c.body <;> cases l.style.blocks <;> exact ⟨_, rfl⟩
  | unsupported => exact rfl

/-- **A member is laid out** if it passes its checks. -/
theorem performs_memberLines (m : FlatMember) : Performs (l.memberChecks m) (l.memberLines m) := by
  cases m with
  | field f =>
    unfold memberChecks
    rw [FlatMember.reportName_field]
    exact (performs_spell _ _).bind fun type _ => .ok _
  | method x =>
    have hchecks : l.memberChecks (.method x) =
        [l.spellCheck (x.origin.reportName x.signature.name) x.result] ++
          (x.params.map (·.type)).map (l.spellCheck (x.origin.reportName x.signature.name)) := by
      simp [memberChecks, FlatMember.types, FlatMember.reportName_method, FlatMember.isStaticInit]
    rw [hchecks]
    exact (performs_spell _ _).bind fun result _ => (performs_params _ _ _).bind_ok _
  | constructor c =>
    change Performs _ (l.constructorLines c)
    unfold constructorLines memberChecks FlatMember.types FlatMember.isStaticInit
    cases hc : c.isStatic with
    | true =>
      simp only [hc, if_true, List.map_nil, List.nil_append]
      exact performs_staticInitLines c
    | false =>
      simp only [hc, Bool.false_eq_true, if_false, List.append_nil]
      exact (performs_params _ _ _).bind_ok _

theorem performs_classText (l : Layout) (c : Resolved) :
    Performs (l.checks c) (l.classText c) := by
  rw [classText_eq]
  exact (Performs.mapM performs_memberLines c.members).bind_ok _

/-! ### What cannot be written -/

/-- **What keeps a member from being written**: a type without a spelling, of a field, of a result or
of a parameter, or a static initializer in a target without such. The parameters of a static
initializer are not written. -/
def Unwritable (l : Layout) : FlatMember → Prop
  | .field f => l.types.spell f.type = none
  | .method x => l.types.spell x.result = none ∨ ∃ p ∈ x.params, l.types.spell p.type = none
  | .constructor c =>
    (c.isStatic = false ∧ ∃ p ∈ c.params, l.types.spell p.type = none) ∨
      (c.isStatic = true ∧ l.style.staticInit = .unsupported)

@[simp]
theorem passed_spellCheck {member type : String} :
    (l.spellCheck member type).passed = false ↔ l.types.spell type = none :=
  Option.isSome_eq_false_iff.trans Option.isNone_iff_eq_none

@[simp]
theorem passed_staticInitCheck {member : String} :
    (l.staticInitCheck member).passed = false ↔ l.style.staticInit = .unsupported := by
  simp [staticInitCheck]

/-- A member passes its checks unless it cannot be written. -/
theorem exists_failed_memberChecks_iff {m : FlatMember} :
    (∃ k ∈ l.memberChecks m, k.passed = false) ↔ l.Unwritable m := by
  unfold memberChecks Unwritable FlatMember.types FlatMember.isStaticInit
  cases m with
  | field f => simp
  | method x => simp
  | constructor c => cases hc : c.isStatic <;> simp [hc]

theorem exists_failed_checks_iff {c : Resolved} :
    (∃ k ∈ l.checks c, k.passed = false) ↔ ∃ m ∈ c.members, l.Unwritable m := by
  unfold checks
  constructor
  · rintro ⟨k, hk, hfailed⟩
    obtain ⟨m, hm, hk⟩ := List.mem_flatMap.mp hk
    have hunwritable := exists_failed_memberChecks_iff.mp ⟨k, hk, hfailed⟩
    exact ⟨m, hm, hunwritable⟩
  · rintro ⟨m, hm, hunwritable⟩
    have hnamed : { l with className := c.name }.Unwritable m := hunwritable
    obtain ⟨k, hk, hfailed⟩ := exists_failed_memberChecks_iff.mpr hnamed
    exact ⟨k, List.mem_flatMap.mpr ⟨m, hm, hk⟩, hfailed⟩

/-- **The last stage refuses exactly what cannot be written.** It fails if and only if one of the
members is unwritable; its failure is that of the first check which is not passed; and the file of a
class fails as the class does. -/
theorem classText_fails_first_check (l : Layout) (c : Resolved) :
    ((∃ e, l.classText c = .error e) ↔ ∃ m ∈ c.members, l.Unwritable m) ∧
    (∀ e, l.classText c = .error e ↔
      ∃ k, Check.firstFailed? (l.checks c) = some k ∧ k.error = e) ∧
    ∀ e, l.fileText c = .error e ↔ l.classText c = .error e := by
  refine ⟨(l.performs_classText c).exists_error_iff.trans exists_failed_checks_iff,
    fun e => (l.performs_classText c).error_iff, fun e => ?_⟩
  unfold fileText
  cases l.classText c with
  | error e' => simp [Except.map]
  | ok text => simp [Except.map]

/-- The backing field of a property whose type nobody knows. -/
def ownerField : FlatMember :=
  .field ⟨"owner", .priv, false, "Person", none, .mutable, .generated "Owner"⟩

/-- The getter of the property. -/
def ownerGetter : FlatMember :=
  .method ⟨"getOwner", ⟨"getOwner", []⟩, .pub, false, none, none, "Person", [], .read "owner",
    .generated "Owner"⟩

/-- A renamed method whose result and parameter are of types that nobody knows. -/
def findMethod : FlatMember :=
  .method ⟨"find", ⟨"Find", ["Key"]⟩, .pub, false, none, none, "Book", [⟨"key", "Key"⟩],
    .abstract, .declared⟩

/-- A static initializer. The types of its parameters are not written. -/
def shelfInit : FlatMember :=
  .constructor ⟨⟨"Shelf", ["Key"]⟩, .priv, true, none, [⟨"key", "Key"⟩], ["load();"]⟩

/-- A class with the given members, behind a field that can be written. -/
def shelf (members : List FlatMember) : Resolved :=
  { track with name := "Shelf", members := trackField "label" "string" :: members }

/-- A generated member is reported by its property, any other by the name it is declared with. -/
theorem classText_fails_first_check_shelf :
    (∃ m ∈ (shelf [ownerGetter, findMethod]).members, cppLayout.Unwritable m) ∧
      cppLayout.classText (shelf [ownerField, ownerGetter, findMethod]) =
        .error ⟨"Shelf", some "Owner", .unknownType "Person"⟩ ∧
      cppLayout.fileText (shelf [ownerGetter, findMethod]) =
        .error ⟨"Shelf", some "Owner", .unknownType "Person"⟩ ∧
      cppLayout.fileText (shelf [findMethod, ownerGetter]) =
        .error ⟨"Shelf", some "Find", .unknownType "Book"⟩ ∧
      cppLayout.classText (shelf [shelfInit, findMethod]) =
        .error ⟨"Shelf", some "Shelf", .unmappable "static"⟩ ∧
      ¬ ∃ e, cppLayout.classText (shelf []) = .error e := by
  obtain ⟨-, hfield, -⟩ :=
    cppLayout.classText_fails_first_check (shelf [ownerField, ownerGetter, findMethod])
  obtain ⟨hunwritable, hgetter, hgetterFile⟩ :=
    cppLayout.classText_fails_first_check (shelf [ownerGetter, findMethod])
  obtain ⟨-, hmethod, hmethodFile⟩ :=
    cppLayout.classText_fails_first_check (shelf [findMethod, ownerGetter])
  obtain ⟨-, hinit, -⟩ := cppLayout.classText_fails_first_check (shelf [shelfInit, findMethod])
  obtain ⟨hwritable, -, -⟩ := cppLayout.classText_fails_first_check (shelf [])
  have hgetter := (hgetter ⟨"Shelf", some "Owner", .unknownType "Person"⟩).mpr ⟨_, rfl, rfl⟩
  have hmethod := (hmethod ⟨"Shelf", some "Find", .unknownType "Book"⟩).mpr ⟨_, rfl, rfl⟩
  refine ⟨hunwritable.mp ⟨_, hgetter⟩, (hfield _).mpr ⟨_, rfl, rfl⟩, (hgetterFile _).mpr hgetter,
    (hmethodFile _).mpr hmethod, (hinit _).mpr ⟨_, rfl, rfl⟩, fun hfails => ?_⟩
  obtain ⟨m, hm, hunwritable⟩ := hwritable.mp hfails
  obtain rfl := List.mem_singleton.mp hm
  exact nomatch hunwritable

end Layout

end ClassIdiom
