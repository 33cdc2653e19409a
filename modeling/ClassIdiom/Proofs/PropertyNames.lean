import ClassIdiom.Proofs.Overlays

/-! # Names beside that of the property

Rules for names are judged when an overlay changes them. They pass exactly if, whatever a property is
called, neither its backing field nor an accessor is called the same, and its accessors are called
differently (`Naming.judge_ok_iff_setsApart`). The backing field is the case that needs an argument:
its name holds the property with a lower-case first letter, and lower case may make a name longer but
never shorter (`Text.length_le_length_lowerFirst`).

The built-in rules pass too, so the rules of a profile do whether or not an overlay changes them. -/

namespace ClassIdiom

namespace Text

theorem length_le_length_lowerFirst (s : String) : s.length ≤ (lowerFirst s).length := by
  unfold lowerFirst
  split
  · next hs =>
    rw [← String.length_toList, hs]
    exact Nat.zero_le _
  · next c cs hs =>
    have hc : 0 < (lowerChar c).length := List.length_pos_iff.mpr (lowerChar_ne_nil c)
    rw [← String.length_toList, hs, String.length_ofList, List.length_append, List.length_cons]
    omega

end Text

namespace Naming

variable {n : Naming}

/-- A property as it stands in the name of its backing field. -/
def stem (n : Naming) (property : String) : String :=
  if n.lowerField then Text.lowerFirst property else property

theorem backingField_eq (n : Naming) (property : String) :
    n.backingField property = n.fieldPrefix ++ n.stem property ++ n.fieldSuffix := rfl

theorem length_le_length_stem (n : Naming) (property : String) :
    property.length ≤ (n.stem property).length := by
  unfold stem
  split
  · exact Text.length_le_length_lowerFirst property
  · exact Nat.le_refl _

/-- **The names that are made from a property** are others than its own, and the accessors have
different ones. -/
structure SetsApart (n : Naming) (property : String) : Prop where
  field : n.backingField property ≠ property
  getter : n.getter property ≠ property
  setter : n.setter property ≠ property
  accessors : n.getter property ≠ n.setter property

theorem judge_ok_iff {u : Unit} :
    n.judge = .ok u ↔ ¬ (n.fieldPrefix = "" ∧ n.fieldSuffix = "") ∧
      ¬ (n.getterPrefix = "" ∨ n.setterPrefix = "") ∧ n.getterPrefix ≠ n.setterPrefix := by
  unfold judge
  split
  · simp [*]
  split
  · simp [*]
  split
  · simp [*]
  · simp only [true_iff]
    exact ⟨‹_›, ‹_›, ‹_›⟩

theorem append_ne_self {affix name : String} (h : affix ≠ "") : affix ++ name ≠ name := by
  intro he
  have hlength := congrArg String.length he
  rw [String.length_append] at hlength
  exact h (String.length_eq_zero_iff.mp (by omega))

theorem backingField_ne (h : ¬ (n.fieldPrefix = "" ∧ n.fieldSuffix = "")) (property : String) :
    n.backingField property ≠ property := by
  intro he
  have hlength := congrArg String.length he
  have hstem := n.length_le_length_stem property
  rw [backingField_eq, String.length_append, String.length_append] at hlength
  refine h ⟨String.length_eq_zero_iff.mp ?_, String.length_eq_zero_iff.mp ?_⟩ <;> omega

/-- **The rules pass exactly if they set names apart**, for every property. -/
theorem judge_ok_iff_setsApart {u : Unit} : n.judge = .ok u ↔ ∀ property, n.SetsApart property := by
  rw [judge_ok_iff]
  constructor
  · rintro ⟨hfield, haffixes, hdiffer⟩ property
    obtain ⟨hgetter, hsetter⟩ := not_or.mp haffixes
    refine ⟨backingField_ne hfield property, append_ne_self hgetter, append_ne_self hsetter, ?_⟩
    exact fun he => hdiffer (String.append_left_inj property |>.mp he)
  · intro h
    -- The property without a name shows the affixes alone.
    obtain ⟨hfield, hgetter, hsetter, haccessors⟩ := h ""
    rw [getter, String.append_empty] at hgetter haccessors
    rw [setter, String.append_empty] at hsetter haccessors
    refine ⟨?_, not_or.mpr ⟨hgetter, hsetter⟩, haccessors⟩
    rintro ⟨hbefore, hafter⟩
    refine hfield ?_
    unfold backingField
    rw [hbefore, hafter]
    cases n.lowerField <;> rfl

theorem judge_builtIn (target : Target) : (Profile.builtIn target).naming.judge = .ok () := by
  cases target <;> decide

end Naming

namespace Overlay

variable {o : Overlay} {p q : Profile}

/-- **The rules for names after an overlay** are the built-in ones of a target, or these with changes
that are judged. -/
theorem naming_of_apply (h : o.apply = .ok p) :
    ∃ target, (o.naming = none ∧ p.naming = (Profile.builtIn target).naming) ∨
      ∃ change, o.naming = some change ∧
        change.applyTo (Profile.builtIn target).naming = .ok p.naming ∧ p.naming.judge = .ok () := by
  obtain ⟨target, p₁, p₂, -, h₁, h₂, h⟩ := apply_ok_iff.mp h
  have hnaming : p₂.naming = (Profile.builtIn target).naming := by
    rw [eq_of_setFallback h₂, eq_of_foldlM_setVisibility h₁]
    rfl
  refine ⟨target, ?_⟩
  obtain ⟨hnone, rfl⟩ | ⟨change, naming, hchange, hchanged, hjudge, rfl⟩ := setNaming_ok_iff.mp h
  · exact .inl ⟨hnone, hnaming⟩
  · rw [hnaming] at hchanged
    exact .inr ⟨change, hchange, hchanged, hjudge⟩

theorem judge_of_apply (h : o.apply = .ok p) : p.naming.judge = .ok () := by
  obtain ⟨target, ⟨-, hnaming⟩ | ⟨change, -, -, hjudge⟩⟩ := naming_of_apply h
  · rw [hnaming]
    exact Naming.judge_builtIn target
  · exact hjudge

/-- **A profile keeps the name of a property**: with the rules that an overlay gives, changed or not,
no property has the name of its backing field or of an accessor, and its accessors have different
names. -/
theorem apply_setsApart (h : o.apply = .ok p) (property : String) :
    p.naming.backingField property ≠ property ∧ p.naming.getter property ≠ property ∧
      p.naming.setter property ≠ property ∧
      p.naming.getter property ≠ p.naming.setter property := by
  obtain ⟨hfield, hgetter, hsetter, haccessors⟩ :=
    Naming.judge_ok_iff_setsApart.mp (judge_of_apply h) property
  exact ⟨hfield, hgetter, hsetter, haccessors⟩

/-- An overlay that marks backing fields by one letter at their end. -/
def letterOverlay : Overlay where
  target := "Java"
  naming := some { fieldSuffix := some "d" }

/-- The profile that the overlay gives. -/
def letterJava : Profile :=
  { Profile.java with naming := { fieldSuffix := "d" } }

/-- The dotted capital letter becomes two characters, and so the name of the backing field is longer
by two. -/
theorem apply_setsApart_dotted :
    letterOverlay.apply = .ok letterJava ∧
    letterJava.naming.backingField "İd" = "i\u0307dd" ∧
    (letterJava.naming.backingField "İd" ≠ "İd" ∧ letterJava.naming.getter "İd" ≠ "İd" ∧
      letterJava.naming.setter "İd" ≠ "İd" ∧
      letterJava.naming.getter "İd" ≠ letterJava.naming.setter "İd") ∧
    letterJava.naming.backingField "" ≠ "" ∧ letterJava.naming.getter "" ≠ "" ∧
      letterJava.naming.setter "" ≠ "" ∧
      letterJava.naming.getter "" ≠ letterJava.naming.setter "" := by
  have happly : letterOverlay.apply = .ok letterJava := by decide
  exact ⟨happly, by decide, apply_setsApart happly "İd", apply_setsApart happly ""⟩

end Overlay

end ClassIdiom
