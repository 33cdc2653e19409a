import ClassIdiom.Proofs.PropertyNames

/-! # What an overlay does

An overlay is refused for reasons that can be read off it (`Overlay.Refused`): a word in it stands
for nothing, it asks for the level of a package in a target that cannot write it, or it leaves names
ambiguous. If it is not refused, the profile it gives is the built-in one of its target but for what
the overlay says (`Overlay.Describes`). `apply_exact` has both.

The steps of an overlay are taken one after the other, each on the profile that the last one left.
They do not get in each other's way: whether a level can be written depends on the style, which no
step changes, and the rules for names are those of the target until the last step
(`exists_apply_iff`). Of several keys that spell one visibility the last one counts
(`get?_of_lastSpelling`). -/

namespace ClassIdiom

/-! ### Words -/

/-- The word spells the visibility, for readers or as a key, blanks around it aside. -/
def Visibility.SpelledBy (v : Visibility) (word : String) : Prop :=
  Text.trim word = v.spelling ∨ Text.trim word = v.key

/-- The word is the name of the access level, blanks around it aside. -/
def Access.NamedBy (a : Access) (word : String) : Prop := Text.trim word = a.name

/-- The words for a target. -/
def Target.words : Target → List String
  | java => ["java"]
  | cpp => ["cpp", "c++"]
  | python => ["python", "py"]

/-- The word stands for the target, in any case and blanks around it aside. -/
def Target.NamedBy (t : Target) (word : String) : Prop := Text.lowercase (Text.trim word) ∈ t.words

/-- The word for what becomes of the first letter of a method. -/
def MethodCase.word : MethodCase → String
  | preserve => "preserve"
  | lowerCamel => "lowerCamel"

theorem Visibility.parse_ok_iff {word : String} {v : Visibility} :
    parse word = .ok v ↔ v.SpelledBy word := by
  unfold parse SpelledBy
  generalize Text.trim word = w
  constructor
  · intro h
    split at h
    · next u hu =>
      obtain rfl := Except.ok.inj h
      have hw := List.find?_some hu
      simp only [Bool.or_eq_true, beq_iff_eq] at hw
      exact hw.imp Eq.symm Eq.symm
    · exact nomatch h
  · rintro (rfl | rfl) <;> cases v <;> decide

theorem Access.parse_ok_iff {word : String} {a : Access} : parse word = .ok a ↔ a.NamedBy word := by
  unfold parse NamedBy
  generalize Text.trim word = w
  constructor
  · intro h
    split at h
    · next b hb =>
      obtain rfl := Except.ok.inj h
      have hw := List.find?_some hb
      exact (beq_iff_eq.mp hw).symm
    · exact nomatch h
  · rintro rfl
    cases a <;> decide

theorem Target.parse_ok_iff {word : String} {t : Target} : parse word = .ok t ↔ t.NamedBy word := by
  unfold parse NamedBy
  generalize Text.lowercase (Text.trim word) = w
  constructor
  · intro h
    dsimp only at h
    split_ifs at h with hjava hcpp hpython
    · obtain rfl := Except.ok.inj h
      exact List.mem_singleton.mpr hjava
    · obtain rfl := Except.ok.inj h
      exact List.mem_pair.mpr hcpp
    · obtain rfl := Except.ok.inj h
      exact List.mem_pair.mpr hpython
  · intro h
    cases t with
    | java =>
      obtain rfl := List.mem_singleton.mp h
      rfl
    | cpp => rcases List.mem_pair.mp h with rfl | rfl <;> decide
    | python => rcases List.mem_pair.mp h with rfl | rfl <;> decide

theorem MethodCase.parse_ok_iff {word : String} {c : MethodCase} :
    parse word = .ok c ↔ c.word = word := by
  unfold parse
  constructor
  · intro h
    split_ifs at h with hpreserve hlower
    · obtain rfl := Except.ok.inj h
      exact hpreserve.symm
    · obtain rfl := Except.ok.inj h
      exact hlower.symm
  · rintro rfl
    cases c <;> decide

theorem MethodCase.word_injective {a b : MethodCase} (h : a.word = b.word) : a = b :=
  Except.ok.inj ((parse_ok_iff.mpr h).symm.trans (parse_ok_iff.mpr rfl))

theorem Visibility.SpelledBy.unique {word : String} {v w : Visibility} (hv : v.SpelledBy word)
    (hw : w.SpelledBy word) : v = w :=
  Except.ok.inj ((parse_ok_iff.mpr hv).symm.trans (parse_ok_iff.mpr hw))

theorem Access.NamedBy.unique {word : String} {a b : Access} (ha : a.NamedBy word)
    (hb : b.NamedBy word) : a = b :=
  Except.ok.inj ((parse_ok_iff.mpr ha).symm.trans (parse_ok_iff.mpr hb))

theorem Target.NamedBy.unique {word : String} {t u : Target} (ht : t.NamedBy word)
    (hu : u.NamedBy word) : t = u :=
  Except.ok.inj ((parse_ok_iff.mpr ht).symm.trans (parse_ok_iff.mpr hu))

/-! ### Levels -/

namespace Profile

/-- A level can be used if it has the name, and if the style can write it. -/
theorem level_ok_iff {p : Profile} {name : String} {a : Access} :
    p.level name = .ok a ↔ a.NamedBy name ∧ (a = .package → p.style.access = .keyword) := by
  unfold level
  rw [← Access.parse_ok_iff]
  cases Access.parse name with
  | error word => simp
  | ok b =>
    cases b with
    | pub | prot | priv => cases a <;> simp
    | package =>
      by_cases hstyle : p.style.access = .keyword
      · simp [hstyle]
      · simp only [if_neg hstyle, Except.ok.injEq, reduceCtorEq, false_iff]
        rintro ⟨rfl, hkeyword⟩
        exact hstyle (hkeyword rfl)

/-- The levels that can be used depend on the target and its style only. -/
theorem level_congr {p q : Profile} (htarget : q.target = p.target) (hstyle : q.style = p.style) :
    q.level = p.level := by
  funext name
  unfold level
  rw [htarget, hstyle]

theorem style_access_builtIn_iff (t : Target) :
    (builtIn t).style.access = .keyword ↔ t = .java := by
  cases t <;> decide

end Profile

/-! ### Entries of access levels -/

namespace Overlay

variable {o : Overlay} {p q : Profile} {v : Visibility} {entries : List (String × String)}

/-- **The last entry for a visibility**: its key spells the visibility, and no later key does. -/
def LastSpelling (entries : List (String × String)) (v : Visibility) (e : String × String) : Prop :=
  ∃ front back, entries = front ++ e :: back ∧ v.SpelledBy e.1 ∧ ∀ e' ∈ back, ¬ v.SpelledBy e'.1

theorem setVisibility_ok_iff_spelledBy {e : String × String} :
    setVisibility p e = .ok q ↔ ∃ v level, v.SpelledBy e.1 ∧ p.level e.2 = .ok level ∧
      q = { p with visibility := p.visibility.insert v level } := by
  simp only [setVisibility_ok_iff, Visibility.parse_ok_iff]

theorem get?_of_unspelled (h : entries.foldlM setVisibility p = .ok q)
    (hv : ∀ e ∈ entries, ¬ v.SpelledBy e.1) : q.visibility.get? v = p.visibility.get? v := by
  induction entries generalizing p with
  | nil => rw [← Except.ok.inj h]
  | cons e entries ih =>
    obtain ⟨he, hrest⟩ := List.forall_mem_cons.mp hv
    rw [List.foldlM_cons] at h
    obtain ⟨p', hp', h⟩ := Logged.except_bind_ok_iff.mp h
    obtain ⟨w, level, hw, -, rfl⟩ := setVisibility_ok_iff_spelledBy.mp hp'
    have hne : v ≠ w := fun hvw => he (hvw ▸ hw)
    rw [ih h hrest, Table.get?_insert, if_neg hne]

theorem get?_of_lastSpelling {e : String × String} (h : entries.foldlM setVisibility p = .ok q)
    (he : LastSpelling entries v e) : ∃ a, a.NamedBy e.2 ∧ q.visibility.get? v = some a := by
  obtain ⟨front, back, rfl, hv, hback⟩ := he
  rw [List.foldlM_append] at h
  obtain ⟨p₁, -, h⟩ := Logged.except_bind_ok_iff.mp h
  rw [List.foldlM_cons] at h
  obtain ⟨p₂, hp₂, h⟩ := Logged.except_bind_ok_iff.mp h
  obtain ⟨w, level, hw, hlevel, rfl⟩ := setVisibility_ok_iff_spelledBy.mp hp₂
  obtain rfl : v = w := hv.unique hw
  refine ⟨level, (Profile.level_ok_iff.mp hlevel).1, ?_⟩
  rw [get?_of_unspelled h hback, Table.get?_insert, if_pos rfl]

theorem exists_foldlM_setVisibility_iff :
    (∃ q, entries.foldlM setVisibility p = .ok q) ↔
      ∀ e ∈ entries, (∃ v : Visibility, v.SpelledBy e.1) ∧ ∃ a, p.level e.2 = .ok a := by
  induction entries generalizing p with
  | nil => simp [pure, Except.pure]
  | cons e entries ih =>
    simp only [List.foldlM_cons, Logged.except_bind_ok_iff, List.forall_mem_cons]
    -- The next entry meets the same style, and so the same levels.
    have hstyle : ∀ table, { p with visibility := table }.level = p.level := fun _ =>
      Profile.level_congr rfl rfl
    constructor
    · rintro ⟨q, p', hp', h⟩
      obtain ⟨v, level, hv, hlevel, rfl⟩ := setVisibility_ok_iff_spelledBy.mp hp'
      have hrest := ih.mp ⟨q, h⟩
      rw [hstyle] at hrest
      exact ⟨⟨⟨v, hv⟩, level, hlevel⟩, hrest⟩
    · rintro ⟨⟨⟨v, hv⟩, level, hlevel⟩, hrest⟩
      rw [← hstyle (p.visibility.insert v level)] at hrest
      obtain ⟨q, h⟩ := ih.mpr hrest
      exact ⟨q, _, setVisibility_ok_iff_spelledBy.mpr ⟨v, level, hv, hlevel, rfl⟩, h⟩

end Overlay

/-! ### Rules for names -/

namespace NamingOverlay

variable {change : NamingOverlay} {n n' : Naming}

/-- **The rules that a change gives are replaced**, and no others. -/
structure Replaces (change : NamingOverlay) (n n' : Naming) : Prop where
  fieldPrefix : n'.fieldPrefix = change.fieldPrefix.getD n.fieldPrefix
  fieldSuffix : n'.fieldSuffix = change.fieldSuffix.getD n.fieldSuffix
  lowerField : n'.lowerField = change.lowerField.getD n.lowerField
  getterPrefix : n'.getterPrefix = change.getterPrefix.getD n.getterPrefix
  setterPrefix : n'.setterPrefix = change.setterPrefix.getD n.setterPrefix
  methodCase : n'.methodCase.word = change.methodCase.getD n.methodCase.word
  setterParam : n'.setterParam = n.setterParam

/-- A change names no rule for the first letter of methods that there is. -/
def MistakesCase (change : NamingOverlay) : Prop :=
  ∃ word, change.methodCase = some word ∧ ∀ c : MethodCase, c.word ≠ word

/-- **A change leaves names ambiguous**: with what it replaces, a backing field has neither prefix
nor suffix, or an accessor has no prefix, or both accessors have the same. -/
def LeavesAmbiguous (change : NamingOverlay) (n : Naming) : Prop :=
  change.fieldPrefix.getD n.fieldPrefix = "" ∧ change.fieldSuffix.getD n.fieldSuffix = "" ∨
  change.getterPrefix.getD n.getterPrefix = "" ∨ change.setterPrefix.getD n.setterPrefix = "" ∨
  change.getterPrefix.getD n.getterPrefix = change.setterPrefix.getD n.setterPrefix

theorem applyTo_ok_iff : change.applyTo n = .ok n' ↔ change.Replaces n n' := by
  unfold applyTo
  constructor
  · intro h
    cases hcase : change.methodCase with
    | none =>
      rw [hcase] at h
      rw [← Except.ok.inj h]
      exact ⟨rfl, rfl, rfl, rfl, rfl, by rw [hcase]; rfl, rfl⟩
    | some word =>
      rw [hcase] at h
      obtain ⟨c, hc, h⟩ := Logged.except_bind_ok_iff.mp h
      rw [← Except.ok.inj h]
      exact ⟨rfl, rfl, rfl, rfl, rfl, by rw [hcase]; exact MethodCase.parse_ok_iff.mp hc, rfl⟩
  · intro h
    obtain ⟨fieldPrefix, fieldSuffix, lowerField, getterPrefix, setterPrefix, setterParam,
      methodCase⟩ := n'
    obtain ⟨rfl, rfl, rfl, rfl, rfl, hcase, rfl⟩ := h
    cases hchange : change.methodCase with
    | none =>
      rw [hchange] at hcase
      obtain rfl : methodCase = n.methodCase := MethodCase.word_injective hcase
      rfl
    | some word =>
      rw [hchange] at hcase
      have hparse : MethodCase.parse word = .ok methodCase := MethodCase.parse_ok_iff.mpr hcase
      exact Logged.except_bind_ok_iff.mpr ⟨methodCase, hparse, rfl⟩

theorem judge_ok_iff_of_replaces {u : Unit} (h : change.Replaces n n') :
    n'.judge = .ok u ↔ ¬ change.LeavesAmbiguous n := by
  unfold LeavesAmbiguous
  rw [Naming.judge_ok_iff, h.fieldPrefix, h.fieldSuffix, h.getterPrefix, h.setterPrefix]
  simp only [not_or, and_assoc, ne_eq]

theorem exists_replaces_iff : (∃ n', change.Replaces n n') ↔ ¬ change.MistakesCase := by
  unfold MistakesCase
  constructor
  · rintro ⟨n', h⟩ ⟨word, hword, hnone⟩
    have hcase := h.methodCase
    rw [hword] at hcase
    exact hnone n'.methodCase hcase
  · intro hcase
    obtain ⟨c, hc⟩ : ∃ c : MethodCase, c.word = change.methodCase.getD n.methodCase.word := by
      cases hchange : change.methodCase with
      | none => exact ⟨n.methodCase, rfl⟩
      | some word =>
        by_contra hnone
        exact hcase ⟨word, hchange, fun c hc => hnone ⟨c, hc⟩⟩
    exact ⟨⟨_, _, _, _, _, n.setterParam, c⟩, rfl, rfl, rfl, rfl, rfl, hc, rfl⟩

end NamingOverlay

/-! ### Overlays that are accepted -/

namespace Overlay

variable {o : Overlay} {p q : Profile} {t : Target}

/-- The words of an overlay that stand for access levels. -/
def levels (o : Overlay) : List String :=
  o.visibility.entries.map (·.2) ++
    match o.fallback with
    | some (.fixed name) => [name]
    | none | some .priv | some .reject => []

/-- **An overlay suits a target**: its words stand for something, the target can write the levels it
asks for, and the rules for names are not left ambiguous. -/
structure Suits (o : Overlay) (t : Target) : Prop where
  keys : ∀ e ∈ o.visibility.entries, ∃ v : Visibility, v.SpelledBy e.1
  levels : ∀ word ∈ o.levels, ∃ a : Access, a.NamedBy word ∧ (a = .package → t = .java)
  naming : ∀ change, o.naming = some change →
    ¬ change.MistakesCase ∧ ¬ change.LeavesAmbiguous (Profile.builtIn t).naming

theorem exists_setFallback_iff {choice : Option FallbackChoice} :
    (∃ q, setFallback p choice = .ok q) ↔
      ∀ name, choice = some (.fixed name) → ∃ a, p.level name = .ok a := by
  rcases choice with _ | _ | _ | name
  · simp [setFallback]
  · simp [setFallback]
  · simp [setFallback]
  · simp only [setFallback]
    cases hlevel : p.level name <;> simp [hlevel]

theorem exists_setNaming_iff {change : Option NamingOverlay} :
    (∃ q, setNaming p change = .ok q) ↔ ∀ c, change = some c →
      ¬ c.MistakesCase ∧ ¬ c.LeavesAmbiguous p.naming := by
  simp only [setNaming_ok_iff, NamingOverlay.applyTo_ok_iff]
  constructor
  · rintro ⟨q, ⟨rfl, -⟩ | ⟨c, naming, rfl, hnaming, hjudge, -⟩⟩ c' hc'
    · exact nomatch hc'
    · obtain rfl := Option.some.inj hc'
      exact ⟨NamingOverlay.exists_replaces_iff.mp ⟨naming, hnaming⟩,
        (NamingOverlay.judge_ok_iff_of_replaces hnaming).mp hjudge⟩
  · intro h
    cases change with
    | none => exact ⟨p, .inl ⟨rfl, rfl⟩⟩
    | some c =>
      obtain ⟨hcase, hambiguous⟩ := h c rfl
      obtain ⟨naming, hnaming⟩ := NamingOverlay.exists_replaces_iff.mpr hcase
      have hjudge := (NamingOverlay.judge_ok_iff_of_replaces (u := ()) hnaming).mpr hambiguous
      exact ⟨_, .inr ⟨c, naming, rfl, hnaming, hjudge, rfl⟩⟩

theorem forall_mem_levels_iff {P : String → Prop} :
    (∀ word ∈ o.levels, P word) ↔ (∀ e ∈ o.visibility.entries, P e.2) ∧
      ∀ name, o.fallback = some (.fixed name) → P name := by
  unfold levels
  rw [List.forall_mem_append, List.forall_mem_map]
  refine and_congr_right fun _ => ?_
  rcases o.fallback with _ | _ | _ | name <;> simp

/-- All levels are judged by the style of the target. -/
theorem exists_level_extend_iff {word : String} : (∃ a, (o.extend t).level word = .ok a) ↔
    ∃ a : Access, a.NamedBy word ∧ (a = .package → t = .java) := by
  simp only [Profile.level_ok_iff, ← Profile.style_access_builtIn_iff]
  rfl

/-- **An overlay gives a profile** exactly if it names a target that it suits. -/
theorem exists_apply_iff :
    (∃ p, o.apply = .ok p) ↔ ∃ t : Target, t.NamedBy o.target ∧ o.Suits t := by
  -- The steps before it change neither the style nor the rules for names that a step looks at.
  have hstyle : ∀ {t : Target} {p₁ : Profile},
      o.visibility.entries.foldlM setVisibility (o.extend t) = .ok p₁ →
        p₁.level = (o.extend t).level := by
    intro t p₁ h₁
    rw [eq_of_foldlM_setVisibility h₁]
    exact Profile.level_congr rfl rfl
  have hnaming : ∀ {t : Target} {p₁ p₂ : Profile},
      o.visibility.entries.foldlM setVisibility (o.extend t) = .ok p₁ →
      setFallback p₁ o.fallback = .ok p₂ → p₂.naming = (Profile.builtIn t).naming := by
    intro t p₁ p₂ h₁ h₂
    rw [eq_of_setFallback h₂, eq_of_foldlM_setVisibility h₁]
    rfl
  constructor
  · rintro ⟨p, h⟩
    obtain ⟨t, p₁, p₂, ht, h₁, h₂, h⟩ := apply_ok_iff.mp h
    have hentries := exists_foldlM_setVisibility_iff.mp ⟨p₁, h₁⟩
    have hfallback := exists_setFallback_iff.mp ⟨p₂, h₂⟩
    have hchange := exists_setNaming_iff.mp ⟨p, h⟩
    rw [hstyle h₁] at hfallback
    rw [hnaming h₁ h₂] at hchange
    refine ⟨t, Target.parse_ok_iff.mp ht, fun e he => (hentries e he).1, ?_, hchange⟩
    refine forall_mem_levels_iff.mpr ⟨fun e he => ?_, fun name hname => ?_⟩
    · exact exists_level_extend_iff.mp (hentries e he).2
    · exact exists_level_extend_iff.mp (hfallback name hname)
  · rintro ⟨t, ht, hsuits⟩
    obtain ⟨hlevels, hfixed⟩ := forall_mem_levels_iff.mp hsuits.levels
    obtain ⟨p₁, h₁⟩ := exists_foldlM_setVisibility_iff.mpr fun e he =>
      ⟨hsuits.keys e he, exists_level_extend_iff.mpr (hlevels e he)⟩
    obtain ⟨p₂, h₂⟩ : ∃ p₂, setFallback p₁ o.fallback = .ok p₂ := by
      refine exists_setFallback_iff.mpr fun name hname => ?_
      rw [hstyle h₁]
      exact exists_level_extend_iff.mpr (hfixed name hname)
    obtain ⟨p, h⟩ : ∃ p, setNaming p₂ o.naming = .ok p := by
      refine exists_setNaming_iff.mpr ?_
      rw [hnaming h₁ h₂]
      exact hsuits.naming
    exact ⟨p, apply_ok_iff.mpr ⟨t, p₁, p₂, Target.parse_ok_iff.mpr ht, h₁, h₂, h⟩⟩

/-- **Why an overlay is refused.** Its target, a key or a word for a level stands for nothing; or it
asks for the level of a package and its target is not Java; or it changes the rules for names and
mistakes the one for methods or leaves names ambiguous. -/
def Refused (o : Overlay) : Prop :=
  (∀ t : Target, ¬ t.NamedBy o.target) ∨
  (∃ e ∈ o.visibility.entries, ∀ v : Visibility, ¬ v.SpelledBy e.1) ∨
  (∃ word ∈ o.levels, ∀ a : Access, ¬ a.NamedBy word) ∨
  (∃ word ∈ o.levels, Access.package.NamedBy word ∧ ¬ Target.java.NamedBy o.target) ∨
  ∃ change, o.naming = some change ∧ (change.MistakesCase ∨
    ∃ t : Target, t.NamedBy o.target ∧ change.LeavesAmbiguous (Profile.builtIn t).naming)

theorem suits_iff_not_refused (ht : t.NamedBy o.target) : o.Suits t ↔ ¬ o.Refused := by
  constructor
  · intro h hrefused
    rcases hrefused with hnone | ⟨e, he, hnone⟩ | ⟨word, hword, hnone⟩ |
      ⟨word, hword, hpackage, hjava⟩ | ⟨change, hchange, hcase | ⟨t', ht', hambiguous⟩⟩
    · exact hnone t ht
    · obtain ⟨v, hv⟩ := h.keys e he
      exact hnone v hv
    · obtain ⟨a, ha, -⟩ := h.levels word hword
      exact hnone a ha
    · obtain ⟨a, ha, hwritten⟩ := h.levels word hword
      have ht' := hwritten (ha.unique hpackage)
      exact hjava (ht' ▸ ht)
    · exact (h.naming change hchange).1 hcase
    · obtain rfl := ht.unique ht'
      exact (h.naming change hchange).2 hambiguous
  · intro h
    unfold Refused at h
    push Not at h
    obtain ⟨-, hkeys, hnamed, hpackage, hnaming⟩ := h
    refine ⟨hkeys, fun word hword => ?_, fun change hchange => ?_⟩
    · obtain ⟨a, ha⟩ := hnamed word hword
      refine ⟨a, ha, ?_⟩
      rintro rfl
      exact ht.unique (hpackage word hword ha)
    · obtain ⟨hcase, hambiguous⟩ := hnaming change hchange
      exact ⟨hcase, hambiguous t ht⟩

theorem exists_error_apply_iff : (∃ e, o.apply = .error e) ↔ o.Refused := by
  have hfails : (∃ e, o.apply = .error e) ↔ ¬ ∃ p, o.apply = .ok p := by
    cases o.apply <;> simp
  rw [hfails, exists_apply_iff]
  constructor
  · intro hnone
    by_cases htarget : ∃ t : Target, t.NamedBy o.target
    · obtain ⟨t, ht⟩ := htarget
      by_contra hrefused
      exact hnone ⟨t, ht, (suits_iff_not_refused ht).mpr hrefused⟩
    · exact .inl fun t ht => htarget ⟨t, ht⟩
  · rintro hrefused ⟨t, ht, hsuits⟩
    exact (suits_iff_not_refused ht).mp hsuits hrefused

/-! ### What an overlay that is accepted gives -/

/-- The fallback that a choice stands for. -/
def FallbackGiven : FallbackChoice → Fallback → Prop
  | .priv, fallback => fallback = .priv
  | .reject, fallback => fallback = .reject
  | .fixed word, fallback => ∃ a : Access, a.NamedBy word ∧ fallback = .fixed a

/-- **A profile is what an overlay describes**: the built-in profile of the target, but with the
spellings and known types of the overlay added, the level of the last entry for each visibility that
an entry spells, the fallback of the overlay, and the rules for names that it gives. -/
structure Describes (o : Overlay) (t : Target) (p : Profile) : Prop where
  target : p.target = t
  types : ∀ name, p.types.get? name = (o.typeMap.get? name).or ((Profile.builtIn t).types.get? name)
  knownTypes : ∀ name, name ∈ p.knownTypes ↔
    name ∈ (Profile.builtIn t).knownTypes ∨ name ∈ o.knownTypes
  level : ∀ v e, LastSpelling o.visibility.entries v e →
    ∃ a : Access, a.NamedBy e.2 ∧ p.visibility.get? v = some a
  level_unspelled : ∀ v, (∀ e ∈ o.visibility.entries, ¬ v.SpelledBy e.1) →
    p.visibility.get? v = (Profile.builtIn t).visibility.get? v
  fallback : FallbackGiven (o.fallback.getD .priv) p.fallback
  naming : (o.naming.getD {}).Replaces (Profile.builtIn t).naming p.naming
  style : p.style = (Profile.builtIn t).style
  arrayFormat : p.arrayFormat = (Profile.builtIn t).arrayFormat
  fileExtension : p.fileExtension = (Profile.builtIn t).fileExtension

theorem fallbackGiven_of_setFallback {choice : Option FallbackChoice} (hp : p.fallback = .priv)
    (h : setFallback p choice = .ok q) : FallbackGiven (choice.getD .priv) q.fallback := by
  obtain ⟨rfl | rfl, rfl⟩ | ⟨rfl, rfl⟩ | ⟨name, a, rfl, ha, rfl⟩ := setFallback_ok_iff.mp h
  · exact hp
  · exact hp
  · rfl
  · exact ⟨a, (Profile.level_ok_iff.mp ha).1, rfl⟩

theorem eq_of_setNaming {change : Option NamingOverlay} (h : setNaming p change = .ok q) :
    q = { p with naming := q.naming } ∧ (change.getD {}).Replaces p.naming q.naming := by
  obtain ⟨rfl, rfl⟩ | ⟨c, naming, rfl, hnaming, -, rfl⟩ := setNaming_ok_iff.mp h
  · exact ⟨rfl, rfl, rfl, rfl, rfl, rfl, rfl, rfl⟩
  · exact ⟨rfl, NamingOverlay.applyTo_ok_iff.mp hnaming⟩

theorem describes_of_apply (h : o.apply = .ok p) :
    ∃ t : Target, t.NamedBy o.target ∧ o.Describes t p := by
  obtain ⟨t, p₁, p₂, ht, h₁, h₂, h⟩ := apply_ok_iff.mp h
  have hprivate : p₁.fallback = .priv := by
    rw [eq_of_foldlM_setVisibility h₁]
    cases t <;> rfl
  have hfallback := fallbackGiven_of_setFallback hprivate h₂
  have hlevel := fun v (e : String × String) => get?_of_lastSpelling (v := v) (e := e) h₁
  have hunspelled := fun v => get?_of_unspelled (v := v) h₁
  obtain ⟨hp, hnaming⟩ := eq_of_setNaming h
  -- Each step changes one field, so that the others can be followed back to the first profile.
  have hp₂ := eq_of_setFallback h₂
  have hp₁ := eq_of_foldlM_setVisibility h₁
  rw [hp, hp₂]
  rw [hp₂, hp₁] at hnaming
  refine ⟨t, Target.parse_ok_iff.mp ht, ?_, ?_, ?_, hlevel, hunspelled, hfallback, hnaming, ?_, ?_,
    ?_⟩
  all_goals rw [hp₁]
  · exact o.target_extend t
  · exact fun name => Table.get?_insertAll _ o.typeMap name
  · exact fun name => OrderedSet.mem_insertAll
  all_goals rfl

/-- **An overlay does what it says.** It is refused for the reasons of `Refused` and for no other,
and the profile that it gives is the built-in one of the target that it names, but for what the
overlay describes. No spelling of the target is lost. -/
theorem apply_exact (o : Overlay) :
    ((∃ e, o.apply = .error e) ↔ o.Refused) ∧
    ∀ p, o.apply = .ok p → ∃ t : Target, t.NamedBy o.target ∧ o.Describes t p ∧
      ∀ name, (Profile.builtIn t).types.contains name = true → p.types.contains name = true := by
  refine ⟨exists_error_apply_iff, fun p h => ?_⟩
  obtain ⟨t, ht, hp⟩ := describes_of_apply h
  refine ⟨t, ht, hp, fun name hname => ?_⟩
  unfold Table.contains at hname ⊢
  rw [hp.types, Option.isSome_or, hname, Bool.or_true]

/-- Two keys for one visibility, a spelling that the target has, and one prefix of accessors. -/
def twiceSpelled : Overlay where
  target := " C++"
  typeMap := .ofList [("int", "long"), ("Money", "money_t")]
  visibility := .ofList [("protectedInternal", "private"), ("protected internal ", "protected")]
  naming := some { getterPrefix := some "fetch" }

theorem apply_exact_twiceSpelled :
    ¬ twiceSpelled.Refused ∧ ∃ p, twiceSpelled.apply = .ok p ∧ twiceSpelled.Describes .cpp p ∧
      p.visibility.get? .protInternal = some .prot := by
  obtain ⟨hrefused, hdescribes⟩ := apply_exact twiceSpelled
  have hok : twiceSpelled.apply.toBool = true := by decide
  obtain ⟨p, hp⟩ : ∃ p, twiceSpelled.apply = .ok p := by
    cases h : twiceSpelled.apply with
    | error e => rw [h] at hok; exact nomatch hok
    | ok p => exact ⟨p, rfl⟩
  obtain ⟨t, ht, hp', -⟩ := hdescribes p hp
  have hcpp : Target.cpp.NamedBy twiceSpelled.target := by
    unfold Target.NamedBy
    decide
  obtain rfl := ht.unique hcpp
  refine ⟨fun h => ?_, p, hp, hp', ?_⟩
  · obtain ⟨e, he⟩ := hrefused.mpr h
    rw [hp] at he
    exact nomatch he
  · have hlast : LastSpelling twiceSpelled.visibility.entries .protInternal
        ("protected internal ", "protected") := by
      refine ⟨[("protectedInternal", "private")], [], rfl, ?_, by simp⟩
      unfold Visibility.SpelledBy
      decide
    obtain ⟨a, ha, hlevel⟩ := hp'.level _ _ hlast
    have hprot : Access.prot.NamedBy "protected" := by
      unfold Access.NamedBy
      decide
    rw [hlevel, ha.unique hprot]

end Overlay

end ClassIdiom
