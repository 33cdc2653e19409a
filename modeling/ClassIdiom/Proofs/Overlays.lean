import ClassIdiom.Profile.Overlay
import ClassIdiom.Proofs.Logged

/-! # What an overlay leaves of its target

An overlay adds spellings and known types to the built-in profile of its target. What it does after
that, to access levels and names, changes neither the target nor the style nor the spellings, and it
asks for no access level that the style cannot write (`Profile.Adjusts`). So a profile that an
overlay gives can write all its levels, as the built-in profiles can (`Profile.Writable`). -/

namespace ClassIdiom

namespace Profile

/-- **All access levels can be written**: that of a package, which has no keyword, is given to
nothing unless levels are written as keywords on members. -/
def Writable (p : Profile) : Prop :=
  p.style.access ≠ .keyword → ∀ v, p.access? v ≠ some .package

theorem writable_builtIn (target : Target) : (builtIn target).Writable := by
  intro hstyle v
  cases target with
  | java => exact absurd rfl hstyle
  | cpp => cases v <;> decide
  | python => cases v <;> decide

/-- A profile comes from another one by a change of access levels or names. -/
structure Adjusts (p q : Profile) : Prop where
  target : q.target = p.target
  types : q.types = p.types
  style : q.style = p.style
  writable : p.Writable → q.Writable

namespace Adjusts

variable {p q r : Profile}

theorem refl (p : Profile) : Adjusts p p := ⟨rfl, rfl, rfl, id⟩

theorem trans (h : Adjusts p q) (h' : Adjusts q r) : Adjusts p r where
  target := h'.target.trans h.target
  types := h'.types.trans h.types
  style := h'.style.trans h.style
  writable hp := h'.writable (h.writable hp)

end Adjusts

variable {p q : Profile}

theorem ne_package_of_level {name : String} {level : Access} (h : p.level name = .ok level)
    (hstyle : p.style.access ≠ .keyword) : level ≠ .package := by
  rintro rfl
  unfold Profile.level at h
  split at h
  · exact nomatch h
  · rw [if_neg hstyle] at h
    exact nomatch h
  · next hne _ =>
    exact hne (Except.ok.inj h)

end Profile

namespace Overlay

variable {o : Overlay} {p q : Profile}

/-! ### Steps -/

theorem setVisibility_ok_iff {entry : String × String} :
    setVisibility p entry = .ok q ↔ ∃ v level, Visibility.parse entry.1 = .ok v ∧
      p.level entry.2 = .ok level ∧ q = { p with visibility := p.visibility.insert v level } := by
  unfold setVisibility
  cases Visibility.parse entry.1 with
  | error word => simp
  | ok v =>
    cases p.level entry.2 with
    | error e => simp
    | ok level => simp [eq_comm]

/-- Entries of access levels change no more than these. -/
theorem eq_of_foldlM_setVisibility {entries : List (String × String)}
    (h : entries.foldlM setVisibility p = .ok q) : q = { p with visibility := q.visibility } := by
  induction entries generalizing p with
  | nil => rw [← Except.ok.inj h]
  | cons e entries ih =>
    rw [List.foldlM_cons] at h
    obtain ⟨p', hp', h⟩ := Logged.except_bind_ok_iff.mp h
    obtain ⟨v, level, -, -, rfl⟩ := setVisibility_ok_iff.mp hp'
    have hrest := ih h
    exact hrest

theorem setFallback_ok_iff {choice : Option FallbackChoice} :
    setFallback p choice = .ok q ↔
      (choice = none ∨ choice = some .priv) ∧ q = p ∨
      choice = some .reject ∧ q = { p with fallback := .reject } ∨
      ∃ name level, choice = some (.fixed name) ∧ p.level name = .ok level ∧
        q = { p with fallback := .fixed level } := by
  rcases choice with _ | _ | _ | name
  · simp [setFallback, eq_comm]
  · simp [setFallback, eq_comm]
  · simp [setFallback, eq_comm]
  · simp only [setFallback]
    cases hlevel : p.level name with
    | error e => simp [hlevel]
    | ok level => simp [hlevel, eq_comm]

theorem eq_of_setFallback {choice : Option FallbackChoice} (h : setFallback p choice = .ok q) :
    q = { p with fallback := q.fallback } := by
  obtain ⟨-, rfl⟩ | ⟨-, rfl⟩ | ⟨name, level, -, -, rfl⟩ := setFallback_ok_iff.mp h <;> rfl

theorem setNaming_ok_iff {change : Option NamingOverlay} :
    setNaming p change = .ok q ↔ change = none ∧ q = p ∨
      ∃ c naming, change = some c ∧ c.applyTo p.naming = .ok naming ∧ naming.judge = .ok () ∧
        q = { p with naming } := by
  cases change with
  | none => simp [setNaming, eq_comm]
  | some c =>
    simp only [setNaming, Logged.except_bind_ok_iff]
    constructor
    · rintro ⟨naming, hnaming, u, hjudge, hq⟩
      exact .inr ⟨c, naming, rfl, hnaming, hjudge, (Except.ok.inj hq).symm⟩
    · rintro (⟨hnone, -⟩ | ⟨c', naming, hc, hnaming, hjudge, rfl⟩)
      · exact nomatch hnone
      · obtain rfl := Option.some.inj hc
        exact ⟨naming, hnaming, (), hjudge, rfl⟩

/-- The profile of a target with the spellings and known types of an overlay added. -/
def extend (o : Overlay) (target : Target) : Profile :=
  { Profile.builtIn target with
    types := (Profile.builtIn target).types.insertAll o.typeMap.entries
    knownTypes := (Profile.builtIn target).knownTypes.insertAll o.knownTypes }

theorem target_extend (o : Overlay) (target : Target) : (o.extend target).target = target := by
  cases target <;> rfl

/-- **An overlay is taken in steps**, each of which must succeed. -/
theorem apply_ok_iff :
    o.apply = .ok p ↔ ∃ target p₁ p₂, Target.parse o.target = .ok target ∧
      o.visibility.entries.foldlM setVisibility (o.extend target) = .ok p₁ ∧
      setFallback p₁ o.fallback = .ok p₂ ∧ setNaming p₂ o.naming = .ok p := by
  have hparse : ∀ target, (Target.parse o.target).mapError OverlayError.target = .ok target ↔
      Target.parse o.target = .ok target := by
    intro target
    cases Target.parse o.target <;> simp [Except.mapError]
  unfold apply
  simp only [Logged.except_bind_ok_iff, hparse]
  constructor
  · rintro ⟨target, htarget, p₁, h₁, p₂, h₂, h⟩
    exact ⟨target, p₁, p₂, htarget, h₁, h₂, h⟩
  · rintro ⟨target, p₁, p₂, htarget, h₁, h₂, h⟩
    exact ⟨target, htarget, p₁, h₁, p₂, h₂, h⟩

/-! ### What the steps keep -/

theorem adjusts_setVisibility {entry : String × String} (h : setVisibility p entry = .ok q) :
    p.Adjusts q := by
  obtain ⟨v, level, -, hlevel, rfl⟩ := setVisibility_ok_iff.mp h
  refine ⟨rfl, rfl, rfl, fun hp hstyle w => ?_⟩
  have hold := hp hstyle w
  unfold Profile.access? at hold ⊢
  simp only [Table.get?_insert]
  split
  · simpa using Profile.ne_package_of_level hlevel hstyle
  · exact hold

theorem adjusts_foldlM_setVisibility {entries : List (String × String)}
    (h : entries.foldlM setVisibility p = .ok q) : p.Adjusts q := by
  induction entries generalizing p with
  | nil =>
    rw [← Except.ok.inj h]
    exact .refl p
  | cons e entries ih =>
    rw [List.foldlM_cons] at h
    obtain ⟨p', hp', h⟩ := Logged.except_bind_ok_iff.mp h
    exact (adjusts_setVisibility hp').trans (ih h)

/-- A fallback only counts where the table gives no level. -/
theorem writable_fallback {fallback : Fallback} (hp : p.Writable)
    (hf : p.style.access ≠ .keyword → fallback.level? ≠ some .package) :
    { p with fallback }.Writable := by
  intro hstyle v
  have hold := hp hstyle v
  unfold Profile.access? at hold ⊢
  cases hv : p.visibility.get? v with
  | none => simpa [hv] using hf hstyle
  | some level => simpa [hv] using hold

theorem adjusts_setFallback {choice : Option FallbackChoice} (h : setFallback p choice = .ok q) :
    p.Adjusts q := by
  obtain ⟨-, rfl⟩ | ⟨-, rfl⟩ | ⟨name, level, -, hlevel, rfl⟩ := setFallback_ok_iff.mp h
  · exact .refl q
  · exact ⟨rfl, rfl, rfl, fun hp => writable_fallback hp fun _ => nofun⟩
  · refine ⟨rfl, rfl, rfl, fun hp => writable_fallback hp fun hstyle => ?_⟩
    simpa [Fallback.level?] using Profile.ne_package_of_level hlevel hstyle

theorem adjusts_setNaming {change : Option NamingOverlay} (h : setNaming p change = .ok q) :
    p.Adjusts q := by
  obtain ⟨-, rfl⟩ | ⟨c, naming, -, -, -, rfl⟩ := setNaming_ok_iff.mp h
  · exact .refl q
  · exact ⟨rfl, rfl, rfl, id⟩

/-- **An overlay** adjusts the profile of its target with more spellings and known types. -/
theorem adjusts_of_apply (h : o.apply = .ok p) : ∃ target, (o.extend target).Adjusts p := by
  obtain ⟨target, p₁, p₂, -, h₁, h₂, h⟩ := apply_ok_iff.mp h
  exact ⟨target, (adjusts_foldlM_setVisibility h₁).trans
    ((adjusts_setFallback h₂).trans (adjusts_setNaming h))⟩

/-- A profile that an overlay gives has the style of its target and can write all its levels. -/
theorem style_of_apply (h : o.apply = .ok p) :
    p.style = (Profile.builtIn p.target).style ∧ p.Writable := by
  obtain ⟨target, hadjusts⟩ := adjusts_of_apply h
  have htarget : p.target = target := hadjusts.target.trans (o.target_extend target)
  refine ⟨?_, hadjusts.writable (Profile.writable_builtIn target)⟩
  rw [hadjusts.style, htarget]
  rfl

end Overlay

end ClassIdiom
