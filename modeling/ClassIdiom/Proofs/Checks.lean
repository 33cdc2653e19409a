import ClassIdiom.Profile.BuiltIn
import ClassIdiom.Proofs.Stages

/-! # The checks of the first stage

The first stage makes a number of checks, one after the other, and fails at the first that is not
passed. `Performs` says so of any computation, for a list of checks that is given beside it; the
lists are put together as the computations are. For the first stage the list is `Decl.checks`: the
visibility of the type and its special modifier, then for each member its visibility, its special
modifier, the static constructor, and the visibilities of the getter and the setter.

What is wrong with a declaration that does not pass is said without any order by `Decl.Unwritable`. -/

namespace ClassIdiom

/-! ### Checks one after the other -/

/-- A check with its outcome, and the error that is due if it is not passed. -/
structure Check (ε : Type) where
  passed : Bool
  error : ε

variable {ε α β : Type}

/-- The first check that is not passed. -/
def Check.firstFailed? (checks : List (Check ε)) : Option (Check ε) :=
  checks.find? fun c => !c.passed

/-- **A computation performs checks**: it fails with the error of the first one that is not passed,
and succeeds if all are. -/
def Performs (checks : List (Check ε)) (r : Except ε α) : Prop :=
  match Check.firstFailed? checks with
  | some c => r = .error c.error
  | none => ∃ a, r = .ok a

namespace Performs

variable {checks checks' : List (Check ε)} {r : Except ε α}

theorem error_iff (h : Performs checks r) {e : ε} :
    r = .error e ↔ ∃ c, Check.firstFailed? checks = some c ∧ c.error = e := by
  unfold Performs at h
  split at h
  · next c hc => simp [h, hc]
  · next hc =>
    obtain ⟨a, rfl⟩ := h
    simp [hc]

theorem exists_mem_of_error (h : Performs checks r) {e : ε} (he : r = .error e) :
    ∃ c ∈ checks, c.passed = false ∧ c.error = e := by
  obtain ⟨c, hc, hce⟩ := h.error_iff.mp he
  unfold Check.firstFailed? at hc
  have hfailed := List.find?_some hc
  exact ⟨c, List.mem_of_find?_eq_some hc, by simpa using hfailed, hce⟩

theorem exists_error_iff (h : Performs checks r) :
    (∃ e, r = .error e) ↔ ∃ c ∈ checks, c.passed = false := by
  have hfind : (Check.firstFailed? checks).isSome ↔ ∃ c ∈ checks, (!c.passed) = true :=
    List.find?_isSome
  simp only [Bool.not_eq_true'] at hfind
  rw [← hfind, Option.isSome_iff_exists]
  constructor
  · rintro ⟨e, he⟩
    obtain ⟨c, hc, -⟩ := h.error_iff.mp he
    exact ⟨c, hc⟩
  · rintro ⟨c, hc⟩
    exact ⟨c.error, h.error_iff.mpr ⟨c, hc, rfl⟩⟩

theorem ok (a : α) : Performs [] (.ok a : Except ε α) := ⟨a, rfl⟩

theorem require (passed : Bool) (e : ε) :
    Performs [⟨passed, e⟩] (Logged.require passed e).result := by
  cases passed with
  | true => exact ⟨(), rfl⟩
  | false => exact rfl

/-- The checks of a computation come before those of what follows on its success. -/
theorem bind {f : α → Except ε β} (h : Performs checks r)
    (hf : ∀ a, r = .ok a → Performs checks' (f a)) :
    Performs (checks ++ checks') (r >>= f) := by
  unfold Performs Check.firstFailed? at h ⊢
  rw [List.find?_append]
  cases hc : checks.find? fun c => !c.passed with
  | some c =>
    rw [hc] at h
    obtain rfl : r = .error c.error := h
    rfl
  | none =>
    rw [hc] at h
    obtain ⟨a, rfl⟩ := h
    exact hf a rfl

/-- What follows on success without failing makes no checks. -/
theorem bind_ok (h : Performs checks r) (f : α → β) :
    Performs checks (r >>= fun a => .ok (f a)) := by
  rw [← List.append_nil checks]
  exact h.bind fun a _ => .ok (f a)

theorem map {x : Logged ε α} (h : Performs checks x.result) (f : α → β) :
    Performs checks (f <$> x).result := by
  rw [← bind_pure_comp, Logged.result_bind]
  exact h.bind_ok f

theorem mapM {f : α → Except ε β} {checksOf : α → List (Check ε)}
    (h : ∀ a, Performs (checksOf a) (f a)) (l : List α) :
    Performs (l.flatMap checksOf) (l.mapM f) := by
  induction l with
  | nil => exact .ok []
  | cons a l ih =>
    rw [List.mapM_cons, List.flatMap_cons]
    exact (h a).bind fun b _ => ih.bind_ok (b :: ·)

end Performs

/-! ### Modifiers -/

namespace Profile

variable (p : Profile) (typeName : String)

/-- A visibility must have an access level. -/
def visibilityCheck (member : Option String) (v : Visibility) : Check Failure where
  passed := (p.access? v).isSome
  error := ⟨typeName, member, .unmappable v.spelling⟩

/-- A special modifier must have a form in a table. -/
def formCheck (member : Option String) (forms : Table Special SpecialForm) (s : Special) :
    Check Failure where
  passed := (forms.get? s).isSome
  error := ⟨typeName, member, .unmappable s.spelling⟩

/-- The checks of the special modifier of a member. On a field or a constructor none is passed. -/
def specialChecks (m : Member) : List (Check Failure) :=
  m.special.toList.map fun s =>
    match m.kind with
    | .method _ | .property _ => formCheck typeName (some m.name) p.style.methodForms s
    | .field _ | .constructor _ => ⟨false, ⟨typeName, some m.name, .unmappable s.spelling⟩⟩

/-- The check of a static constructor. -/
def staticChecks (m : Member) : List (Check Failure) :=
  match m.kind with
  | .constructor c =>
    if m.isStatic then
      [⟨c.params = [] ∧ p.style.staticInit ≠ .unsupported,
        ⟨typeName, some m.name, .unmappable "static"⟩⟩]
    else []
  | .field _ | .property _ | .method _ => []

/-- The checks of the accessors of a property. -/
def accessorChecks (m : Member) : List (Check Failure) :=
  match m.kind with
  | .property q =>
    p.visibilityCheck typeName (some m.name) (q.getter.visibility.getD m.visibility) ::
      q.setter.toList.map fun a =>
        p.visibilityCheck typeName (some m.name) (a.visibility.getD m.visibility)
  | .field _ | .method _ | .constructor _ => []

/-- The checks of a member, in order. -/
def memberChecks (m : Member) : List (Check Failure) :=
  p.visibilityCheck typeName (some m.name) m.visibility ::
    (p.specialChecks typeName m ++ (p.staticChecks typeName m ++ p.accessorChecks typeName m))

variable {p typeName}

theorem performs_mapVisibility (member : Option String) (v : Visibility) :
    Performs [p.visibilityCheck typeName member v] (p.mapVisibility typeName member v).result := by
  unfold mapVisibility visibilityCheck
  rw [Logged.result_bind, result_lookUp]
  cases p.access? v with
  | none => exact rfl
  | some level => exact ⟨level, rfl⟩

theorem performs_checkClassSpecial (special : Option Special) :
    Performs (special.toList.map (formCheck typeName none p.style.classForms))
      (p.checkClassSpecial typeName special).result := by
  cases special with
  | none => exact .ok ()
  | some s => exact .require _ _

theorem performs_checkSpecial (m : Member) :
    Performs (p.specialChecks typeName m) (p.checkSpecial typeName m).result := by
  unfold specialChecks checkSpecial
  cases m.special with
  | none => exact .ok ()
  | some s =>
    cases m.kind with
    | field f => exact .require false _
    | property q => exact .require _ _
    | method x => exact .require _ _
    | constructor c => exact .require false _

theorem performs_checkStatic (m : Member) :
    Performs (p.staticChecks typeName m) (p.checkStatic typeName m).result := by
  unfold staticChecks checkStatic
  cases m.kind with
  | field f => exact .ok ()
  | property q => exact .ok ()
  | method x => exact .ok ()
  | constructor c =>
    cases m.isStatic with
    | false => exact .ok ()
    | true =>
      have hpassed : (p.style.staticInit != .unsupported && c.params.isEmpty) =
          decide (c.params = [] ∧ p.style.staticInit ≠ .unsupported) := by
        rw [Bool.eq_iff_iff]
        simp [and_comm]
      simp only [hpassed]
      exact .require _ _

theorem performs_mapProperty (m : Member) (q : Property) :
    Performs (p.visibilityCheck typeName (some m.name) (q.getter.visibility.getD m.visibility) ::
        q.setter.toList.map fun a =>
          p.visibilityCheck typeName (some m.name) (a.visibility.getD m.visibility))
      (p.mapProperty typeName m q).result := by
  unfold mapProperty
  rw [Logged.result_bind]
  refine (performs_mapVisibility _ _).bind fun getter _ => ?_
  cases q.setter with
  | none => exact .ok _
  | some a =>
    rw [Logged.result_bind]
    exact ((performs_mapVisibility _ _).map some).bind_ok _

theorem performs_mapKind (m : Member) :
    Performs (p.accessorChecks typeName m) (p.mapKind typeName m).result := by
  unfold accessorChecks mapKind
  cases m.kind with
  | field f => exact .ok _
  | property q => exact (performs_mapProperty m q).map _
  | method x => exact .ok _
  | constructor c => exact .ok _

theorem performs_mapMember (m : Member) :
    Performs (p.memberChecks typeName m) (p.mapMember typeName m).result := by
  unfold mapMember memberChecks
  rw [Logged.result_bind]
  refine (performs_mapVisibility _ _).bind fun access _ => ?_
  rw [Logged.result_bind]
  refine (performs_checkSpecial m).bind fun _ _ => ?_
  rw [Logged.result_bind]
  refine (performs_checkStatic m).bind fun _ _ => ?_
  rw [Logged.result_bind]
  exact (performs_mapKind m).bind_ok _

end Profile

/-- The checks of a declaration, in order. -/
def Decl.checks (d : Decl) (p : Profile) : List (Check Failure) :=
  p.visibilityCheck d.name none d.visibility ::
    (d.special.toList.map (Profile.formCheck d.name none p.style.classForms) ++
      d.members.flatMap (p.memberChecks d.name))

theorem Decl.performs_mapped (d : Decl) (p : Profile) :
    Performs (d.checks p) (d.mapped p).result := by
  unfold mapped checks
  rw [Logged.result_bind]
  refine (Profile.performs_mapVisibility _ _).bind fun access _ => ?_
  rw [Logged.result_bind]
  refine (Profile.performs_checkClassSpecial _).bind fun _ _ => ?_
  rw [Logged.result_bind, Logged.result_mapM]
  exact (Performs.mapM Profile.performs_mapMember d.members).bind_ok _

/-! ### What cannot be written -/

/-- **What a target cannot write of a member**: a visibility without a level, a special modifier on
a field or a constructor or without a form, a static constructor that takes parameters or that the
target does not have, an accessor with a visibility without a level. -/
def Member.Unwritable (p : Profile) (m : Member) : Prop :=
  p.access? m.visibility = none ∨
  (∃ s, m.special = some s ∧
    ((∃ f, m.kind = .field f) ∨ (∃ c, m.kind = .constructor c) ∨
      p.style.methodForms.get? s = none)) ∨
  (∃ c, m.kind = .constructor c ∧ m.isStatic = true ∧
    (c.params ≠ [] ∨ p.style.staticInit = .unsupported)) ∨
  ∃ q, m.kind = .property q ∧
    (p.access? (q.getter.visibility.getD m.visibility) = none ∨
      ∃ a, q.setter = some a ∧ p.access? (a.visibility.getD m.visibility) = none)

/-- **What a target cannot write of a declaration**: a visibility without a level, a special modifier
without a form, or one of the members. -/
def Decl.Unwritable (p : Profile) (d : Decl) : Prop :=
  p.access? d.visibility = none ∨
  (∃ s, d.special = some s ∧ p.style.classForms.get? s = none) ∨
  ∃ m ∈ d.members, m.Unwritable p

namespace Profile

variable {p : Profile} {typeName : String} {m : Member}

@[simp]
theorem passed_visibilityCheck {member : Option String} {v : Visibility} :
    (p.visibilityCheck typeName member v).passed = false ↔ p.access? v = none :=
  Option.isSome_eq_false_iff.trans Option.isNone_iff_eq_none

@[simp]
theorem passed_formCheck {member : Option String} {forms : Table Special SpecialForm}
    {s : Special} : (formCheck typeName member forms s).passed = false ↔ forms.get? s = none :=
  Option.isSome_eq_false_iff.trans Option.isNone_iff_eq_none

theorem exists_failed_specialChecks_iff :
    (∃ c ∈ p.specialChecks typeName m, c.passed = false) ↔
      ∃ s, m.special = some s ∧
        ((∃ f, m.kind = .field f) ∨ (∃ c, m.kind = .constructor c) ∨
          p.style.methodForms.get? s = none) := by
  unfold specialChecks
  cases m.special with
  | none => simp
  | some s => cases m.kind <;> simp

theorem exists_failed_staticChecks_iff :
    (∃ c ∈ p.staticChecks typeName m, c.passed = false) ↔
      ∃ c, m.kind = .constructor c ∧ m.isStatic = true ∧
        (c.params ≠ [] ∨ p.style.staticInit = .unsupported) := by
  unfold staticChecks
  cases m.kind with
  | field f => simp
  | property q => simp
  | method x => simp
  | constructor c => cases m.isStatic <;> simp [imp_iff_not_or]

theorem exists_failed_accessorChecks_iff :
    (∃ c ∈ p.accessorChecks typeName m, c.passed = false) ↔
      ∃ q, m.kind = .property q ∧
        (p.access? (q.getter.visibility.getD m.visibility) = none ∨
          ∃ a, q.setter = some a ∧ p.access? (a.visibility.getD m.visibility) = none) := by
  unfold accessorChecks
  cases m.kind with
  | field f => simp
  | property q => simp
  | method x => simp
  | constructor c => simp

/-- A member passes its checks unless it cannot be written. -/
theorem exists_failed_memberChecks_iff :
    (∃ c ∈ p.memberChecks typeName m, c.passed = false) ↔ m.Unwritable p := by
  unfold memberChecks Member.Unwritable
  simp only [List.exists_mem_cons_iff, List.mem_append, or_and_right, exists_or,
    passed_visibilityCheck, exists_failed_specialChecks_iff, exists_failed_staticChecks_iff,
    exists_failed_accessorChecks_iff]

end Profile

theorem Decl.exists_failed_checks_iff {d : Decl} {p : Profile} :
    (∃ c ∈ d.checks p, c.passed = false) ↔ d.Unwritable p := by
  have hmembers : (∃ c ∈ d.members.flatMap (p.memberChecks d.name), c.passed = false) ↔
      ∃ m ∈ d.members, m.Unwritable p := by
    constructor
    · rintro ⟨c, hc, hfailed⟩
      obtain ⟨m, hm, hc⟩ := List.mem_flatMap.mp hc
      exact ⟨m, hm, Profile.exists_failed_memberChecks_iff.mp ⟨c, hc, hfailed⟩⟩
    · rintro ⟨m, hm, hunwritable⟩
      obtain ⟨c, hc, hfailed⟩ := Profile.exists_failed_memberChecks_iff.mpr hunwritable
      exact ⟨c, List.mem_flatMap.mpr ⟨m, hm, hc⟩, hfailed⟩
  unfold checks Unwritable
  simp only [List.exists_mem_cons_iff, List.mem_append, or_and_right, exists_or,
    Profile.passed_visibilityCheck, hmembers]
  simp

/-- **The first stage refuses exactly what cannot be written.** It fails if and only if there is
something in the declaration that the target cannot write, and its failure is that of the first check
which is not passed. -/
theorem Decl.mapped_fails_first_check (d : Decl) (p : Profile) :
    ((∃ e, (d.mapped p).result = .error e) ↔ d.Unwritable p) ∧
    ∀ e, (d.mapped p).result = .error e ↔
      ∃ c, Check.firstFailed? (d.checks p) = some c ∧ c.error = e :=
  ⟨(d.performs_mapped p).exists_error_iff.trans exists_failed_checks_iff,
    fun _ => (d.performs_mapped p).error_iff⟩

/-- C++ with no level that stands in for others. -/
def Profile.strictCpp : Profile := { Profile.cpp with fallback := .reject }

/-- A purse with a property whose accessors have visibilities of their own. -/
def purseDecl (getter setter : Option Visibility) : Decl where
  name := "Purse"
  members := [
    { name := "owner", kind := .field { type := "string" } },
    { name := "Coins", visibility := .pub,
      kind := .property { type := "int", getter := ⟨getter⟩, setter := some ⟨setter⟩ } }]

theorem Decl.mapped_fails_first_check_purse :
    (purseDecl (some .protInternal) (some .package)).Unwritable .strictCpp ∧
      ((purseDecl (some .protInternal) (some .package)).mapped .strictCpp).result =
        .error ⟨"Purse", some "Coins", .unmappable "protected internal"⟩ ∧
      ((purseDecl none (some .package)).mapped .strictCpp).result =
        .error ⟨"Purse", some "Coins", .unmappable "package"⟩ ∧
      ¬ (purseDecl none (some .priv)).Unwritable .strictCpp := by
  obtain ⟨hunwritable, hgetter⟩ :=
    (purseDecl (some .protInternal) (some .package)).mapped_fails_first_check .strictCpp
  obtain ⟨-, hsetter⟩ := (purseDecl none (some .package)).mapped_fails_first_check .strictCpp
  obtain ⟨hwritable, -⟩ := (purseDecl none (some .priv)).mapped_fails_first_check .strictCpp
  have hgetter := (hgetter _).mpr ⟨_, rfl, rfl⟩
  refine ⟨hunwritable.mp ⟨_, hgetter⟩, hgetter, (hsetter _).mpr ⟨_, rfl, rfl⟩, ?_⟩
  intro h
  obtain ⟨e, he⟩ := hwritable.mpr h
  exact nomatch he

end ClassIdiom
