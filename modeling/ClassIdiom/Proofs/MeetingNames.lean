import Mathlib.Data.List.Rotate
import ClassIdiom.Proofs.GeneratedNames
import ClassIdiom.Proofs.PropertyNames

/-! # Where the names of a property meet

A property becomes a backing field, a getter and a setter. These should have three names, and the
parameter of the setter a name that is not the field's. That the setter has a name of its own is seen
to when rules for names are judged and when names are claimed. But the name of the backing field is
compared neither with that of its getter nor with that of the parameter, and there are rules that are
accepted and let them meet. Which ones can be read off the affixes:

* `Naming.FieldMeetsGetter`: some property has one name for its backing field and its getter;
* `Naming.FieldMeetsParam`: some property has a setter that assigns its parameter to itself.

With all other rules, and only with these, what properties generate is separate in every class that
can be flattened (`Naming.keepsSeparate_iff`). -/

namespace ClassIdiom

/-! ### Words -/

/-- Some word with a word behind it is the same as with another before it, exactly if these two are
rotations of each other. -/
theorem exists_append_eq_append_iff {α : Type} {u v : List α} :
    (∃ x, x ++ v = u ++ x) ↔ u.IsRotated v := by
  constructor
  · rintro ⟨x, hx⟩
    -- By induction on the length: as long as the word starts with `u`, that can be cut off.
    induction hn : x.length using Nat.strong_induction_on generalizing x with
    | _ n ih =>
      subst hn
      rcases List.append_eq_append_iff.mp hx with ⟨y, rfl, rfl⟩ | ⟨y, rfl, hy⟩
      · exact List.isRotated_append
      · by_cases hu : u = []
        · subst hu
          obtain rfl : v = [] := by simpa using hx
          exact .refl _
        · have hlt : y.length < (u ++ y).length := by
            have := List.length_pos_iff.mpr hu
            rw [List.length_append]
            omega
          exact ih y.length hlt y hy.symm rfl
  · intro h
    obtain ⟨k, hk, rfl⟩ := List.isRotated_iff_mod.mp h
    refine ⟨u.take k, ?_⟩
    rw [List.rotate_eq_drop_append_take hk, ← List.append_assoc, List.take_append_drop]

/-! ### Affixes -/

namespace Text

/-- A character that ends its own lower case is its own lower case. -/
theorem eq_nil_of_lowerChar_eq {c : Char} {l : List Char} (h : lowerChar c = l ++ [c]) : l = [] := by
  have hsingle : ∀ x : Char, [x] = l ++ [c] → l = [] := by
    intro x hx
    cases l with
    | nil => rfl
    | cons y l => simp at hx
  unfold lowerChar at h
  split at h
  · exact hsingle _ h
  · split at h
    · next hc =>
      subst hc
      have hlast := congrArg List.getLast? h
      rw [List.getLast?_append_cons] at hlast
      exact absurd hlast (by decide)
    · split at h
      · exact hsingle _ h
      · exact hsingle _ h

end Text

namespace Naming

variable {n : Naming}

/-- The first letter of a property as it stands in the name of its backing field. -/
def first (n : Naming) (c : Char) : List Char := if n.lowerField then Text.lowerChar c else [c]

theorem toList_stem_empty (n : Naming) : (n.stem "").toList = [] := by
  unfold stem
  cases n.lowerField <;> rfl

theorem toList_stem_cons (n : Naming) (c : Char) (cs : List Char) :
    (n.stem (String.ofList (c :: cs))).toList = n.first c ++ cs := by
  unfold stem first Text.lowerFirst
  cases n.lowerField <;> simp

theorem first_ne_nil (n : Naming) (c : Char) : n.first c ≠ [] := by
  unfold first
  split
  · exact Text.lowerChar_ne_nil c
  · exact nofun

theorem eq_nil_of_first_eq {c : Char} {l : List Char} (h : n.first c = l ++ [c]) : l = [] := by
  unfold first at h
  split at h
  · exact Text.eq_nil_of_lowerChar_eq h
  · simpa using h

/-- **The backing field and the getter of some property have one name.** The affixes of the field
give the getter's, or that goes on from the field's first affix with a letter in lower case, and with
the letter itself at the end what is left is a rotation of the field's last affix. -/
def FieldMeetsGetter (n : Naming) : Prop :=
  n.getterPrefix.toList = n.fieldPrefix.toList ++ n.fieldSuffix.toList ∨
  ∃ c rest, n.getterPrefix.toList = n.fieldPrefix.toList ++ n.first c ++ rest ∧
    (rest ++ [c]).IsRotated n.fieldSuffix.toList

theorem backingField_eq_getter_iff {property : String} :
    n.backingField property = n.getter property ↔
      n.fieldPrefix.toList ++ (n.stem property).toList ++ n.fieldSuffix.toList =
        n.getterPrefix.toList ++ property.toList := by
  rw [← String.toList_inj, backingField_eq, getter]
  simp only [String.toList_append]

theorem fieldMeetsGetter_of_cons {c : Char} {cs : List Char}
    (h : n.fieldPrefix.toList ++ (n.first c ++ cs) ++ n.fieldSuffix.toList =
      n.getterPrefix.toList ++ c :: cs) : n.FieldMeetsGetter := by
  have h' : (n.fieldPrefix.toList ++ n.first c) ++ (cs ++ n.fieldSuffix.toList) =
      n.getterPrefix.toList ++ c :: cs := by
    rw [← h]
    simp only [List.append_assoc]
  rcases List.append_eq_append_iff.mp h' with ⟨rest, hrest, hcs⟩ | ⟨extra, hextra, hcs⟩
  · -- The letter falls to what the getter has before the property.
    refine .inr ⟨c, rest, hrest, exists_append_eq_append_iff.mp ⟨cs, ?_⟩⟩
    rw [hcs, List.append_assoc]
    rfl
  · cases extra with
    | nil =>
      refine .inr ⟨c, [], ?_, exists_append_eq_append_iff.mp ⟨cs, hcs.symm⟩⟩
      rw [hextra, List.append_nil, List.append_nil]
    | cons c' extra =>
      -- It falls to the property itself, and then there is no room for a last affix.
      obtain ⟨rfl, -⟩ := List.cons.inj hcs
      have hlength := congrArg List.length hcs
      simp only [List.length_append, List.length_cons] at hlength
      obtain rfl : extra = [] := List.length_eq_zero_iff.mp (by omega)
      have hsuffix : n.fieldSuffix.toList = [] := List.length_eq_zero_iff.mp (by omega)
      obtain ⟨front, last, hfirst⟩ := (List.eq_nil_or_concat' _).resolve_left (n.first_ne_nil c)
      rw [hfirst, ← List.append_assoc] at hextra
      obtain ⟨hfront, hlast⟩ := List.append_inj' hextra rfl
      obtain rfl : last = c := List.singleton_inj.mp hlast
      obtain rfl := eq_nil_of_first_eq hfirst
      left
      rw [← hfront, hsuffix]

/-- **Rules that let the backing field and the getter meet**, for some property. -/
theorem exists_backingField_eq_getter_iff :
    (∃ property, n.backingField property = n.getter property) ↔ n.FieldMeetsGetter := by
  simp only [backingField_eq_getter_iff]
  constructor
  · rintro ⟨property, h⟩
    obtain ⟨cs, rfl⟩ : ∃ cs, property = String.ofList cs := ⟨_, String.ofList_toList.symm⟩
    cases cs with
    | nil =>
      left
      rw [show String.ofList [] = "" from rfl, toList_stem_empty] at h
      simpa using h.symm
    | cons c cs =>
      rw [toList_stem_cons, String.toList_ofList] at h
      exact fieldMeetsGetter_of_cons h
  · rintro (h | ⟨c, rest, hgetter, hrotated⟩)
    · refine ⟨"", ?_⟩
      rw [toList_stem_empty, h]
      simp
    · obtain ⟨cs, hcs⟩ := exists_append_eq_append_iff.mpr hrotated
      refine ⟨String.ofList (c :: cs), ?_⟩
      rw [toList_stem_cons, String.toList_ofList, hgetter]
      simp [hcs]

/-- **The backing field of some property has the name of its setter's parameter**: the affixes of the
field stand at both ends of the parameter. What is between them may be the property, unless the
setter then has that name as well, and so may be what becomes this by lowering a capital letter. -/
def FieldMeetsParam (n : Naming) : Prop :=
  ∃ middle, n.setterParam.toList = n.fieldPrefix.toList ++ middle ++ n.fieldSuffix.toList ∧
    (n.setterParam.toList ≠ n.setterPrefix.toList ++ middle ∨ n.lowerField = true ∧ middle ≠ [])

/-- The letters of the parameter of setters have capital letters, which are others. -/
theorem lowerChar_toUpper_of_mem {c : Char} (h : c ∈ "value".toList) :
    Text.lowerChar c.toUpper = [c] ∧ c.toUpper ∉ "value".toList := by
  have hletters : "value".toList = ['v', 'a', 'l', 'u', 'e'] := rfl
  rw [hletters] at h ⊢
  simp only [List.mem_cons, List.not_mem_nil, or_false] at h
  rcases h with rfl | rfl | rfl | rfl | rfl <;> decide

theorem backingField_eq_param_iff {property : String} :
    n.backingField property = n.setterParam ↔
      n.setterParam.toList =
        n.fieldPrefix.toList ++ (n.stem property).toList ++ n.fieldSuffix.toList := by
  rw [← String.toList_inj, backingField_eq, eq_comm]
  simp only [String.toList_append]

theorem setter_eq_param_iff {property : String} :
    n.setter property = n.setterParam ↔
      n.setterParam.toList = n.setterPrefix.toList ++ property.toList := by
  rw [← String.toList_inj, setter, eq_comm, String.toList_append]

/-- **Rules that let the backing field and the parameter of the setter meet**, for some property
whose setter can be told from the field. -/
theorem exists_backingField_eq_param_iff (hparam : n.setterParam = "value") :
    (∃ property, n.backingField property = n.setterParam ∧ n.setter property ≠ n.setterParam) ↔
      n.FieldMeetsParam := by
  simp only [ne_eq, backingField_eq_param_iff, setter_eq_param_iff]
  constructor
  · rintro ⟨property, hfield, hsetter⟩
    refine ⟨(n.stem property).toList, hfield, ?_⟩
    cases hlower : n.lowerField with
    | false =>
      have hstem : n.stem property = property := by simp [stem, hlower]
      rw [hstem]
      exact .inl hsetter
    | true =>
      by_cases hempty : (n.stem property).toList = []
      · have hlength := n.length_le_length_stem property
        rw [← String.length_toList, ← String.length_toList, hempty] at hlength
        have hproperty : property.toList = [] := List.length_eq_zero_iff.mp (by simpa using hlength)
        rw [hempty, ← hproperty]
        exact .inl hsetter
      · exact .inr ⟨rfl, hempty⟩
  · rintro ⟨middle, hmiddle, hfree⟩
    cases hlower : n.lowerField with
    | false =>
      refine ⟨String.ofList middle, ?_, ?_⟩
      · simpa [stem, hlower] using hmiddle
      · rw [String.toList_ofList]
        exact hfree.resolve_right fun h => absurd (hlower.symm.trans h.1) Bool.false_ne_true
    | true =>
      cases middle with
      | nil =>
        refine ⟨"", ?_, hfree.resolve_right fun h => h.2 rfl⟩
        rw [toList_stem_empty]
        exact hmiddle
      | cons c cs =>
        -- With a capital letter in front, the setter cannot have the name of the parameter.
        have hmem : c ∈ "value".toList := by
          rw [← hparam, hmiddle]
          simp
        obtain ⟨hc, hupper⟩ := lowerChar_toUpper_of_mem hmem
        refine ⟨String.ofList (c.toUpper :: cs), ?_, fun hsetter => hupper ?_⟩
        · rw [toList_stem_cons, first, hlower, if_pos rfl, hc]
          exact hmiddle
        · rw [← hparam, hsetter, String.toList_ofList]
          simp

-- The letter is looked for in the field's last affix, not among all characters.
instance : Decidable n.FieldMeetsGetter :=
  decidable_of_iff
    (n.getterPrefix.toList = n.fieldPrefix.toList ++ n.fieldSuffix.toList ∨
      n.fieldSuffix.toList.any (fun c => n.getterPrefix.toList.tails.any fun rest =>
        n.getterPrefix.toList = n.fieldPrefix.toList ++ n.first c ++ rest ∧
          (rest ++ [c]).IsRotated n.fieldSuffix.toList) = true)
    (or_congr_right (by
      simp only [List.any_eq_true, decide_eq_true_eq]
      constructor
      · rintro ⟨c, -, rest, -, hgetter, hrotated⟩
        exact ⟨c, rest, hgetter, hrotated⟩
      · rintro ⟨c, rest, hgetter, hrotated⟩
        exact ⟨c, hrotated.mem_iff.mp (by simp), rest,
          (List.mem_tails _ _).mpr ⟨_, hgetter.symm⟩, hgetter, hrotated⟩))

instance : Decidable n.FieldMeetsParam :=
  decidable_of_iff
    (∃ rest ∈ n.setterParam.toList.tails, ∃ middle ∈ rest.inits,
      n.setterParam.toList = n.fieldPrefix.toList ++ middle ++ n.fieldSuffix.toList ∧
        (n.setterParam.toList ≠ n.setterPrefix.toList ++ middle ∨
          n.lowerField = true ∧ middle ≠ []))
    (by
      constructor
      · rintro ⟨rest, -, middle, -, h⟩
        exact ⟨middle, h⟩
      · rintro ⟨middle, hmiddle, hfree⟩
        refine ⟨middle ++ n.fieldSuffix.toList, (List.mem_tails _ _).mpr ⟨n.fieldPrefix.toList, ?_⟩,
          middle, (List.mem_inits _ _).mpr ⟨_, rfl⟩, hmiddle, hfree⟩
        rw [hmiddle, List.append_assoc])

end Naming

/-! ### Classes -/

/-- **What takes the place of a property is separate**: its parts have different names, and no
parameter has the name of a field. -/
structure Separate (parts : List FlatMember) : Prop where
  names : (parts.map (·.name)).Nodup
  params : ∀ x, .method x ∈ parts → ∀ param ∈ x.params, ∀ y, .field y ∈ parts → param.name ≠ y.name

/-- The rules keep separate what takes the place of a property that is not abstract, in all classes
that can be flattened. -/
def Naming.KeepsSeparate (n : Naming) : Prop :=
  ∀ (m : Mapped) (f : Flat), (Mapped.flattened m n).result = .ok f → ∀ a ∈ m.members, ∀ q,
    a.kind = .property q → a.special ≠ some .abstract → Separate (a.expand n)

variable {n : Naming} {a : MappedMember} {q : MappedProperty}

theorem names_expand (hk : a.kind = .property q) (ha : a.special ≠ some .abstract) :
    (a.expand n).map (·.name) = n.backingField a.name :: n.getter a.name ::
      q.setter.toList.map fun _ => n.setter a.name := by
  rw [expand_property hk ha]
  cases q.setter <;> rfl

/-- The only parameter is that of the setter, the only field the backing field. -/
theorem params_expand_iff (hk : a.kind = .property q) (ha : a.special ≠ some .abstract) :
    (∀ x, .method x ∈ a.expand n → ∀ param ∈ x.params, ∀ y, .field y ∈ a.expand n →
        param.name ≠ y.name) ↔
      ∀ w, q.setter = some w → n.setterParam ≠ n.backingField a.name := by
  rw [expand_property hk ha]
  constructor
  · intro h w hw
    refine h (a.setter n q w) ?_ ⟨n.setterParam, q.type⟩ List.mem_cons_self (a.backingField n q)
      List.mem_cons_self
    simp [hw]
  · intro h x hx param hparam y hy
    obtain rfl : y = a.backingField n q := by simpa using hy
    simp only [List.mem_cons, reduceCtorEq, FlatMember.method.injEq, false_or, Option.mem_toList,
      Option.map_eq_some_iff] at hx
    rcases hx with rfl | ⟨w, hw, rfl⟩
    · exact nomatch hparam
    · obtain rfl := List.mem_singleton.mp hparam
      exact h w hw

theorem separate_expand_iff (hk : a.kind = .property q) (ha : a.special ≠ some .abstract) :
    Separate (a.expand n) ↔
      n.backingField a.name ≠ n.getter a.name ∧
      ∀ w, q.setter = some w → n.backingField a.name ≠ n.setter a.name ∧
        n.getter a.name ≠ n.setter a.name ∧ n.setterParam ≠ n.backingField a.name := by
  have hseparate : Separate (a.expand n) ↔ ((a.expand n).map (·.name)).Nodup ∧
      ∀ w, q.setter = some w → n.setterParam ≠ n.backingField a.name := by
    rw [← params_expand_iff hk ha]
    exact ⟨fun h => ⟨h.names, h.params⟩, fun h => ⟨h.1, h.2⟩⟩
  rw [hseparate, names_expand hk ha]
  cases q.setter with
  | none => simp
  | some w => simp [and_assoc]

theorem setter_ne_backingField {m : Mapped} {f : Flat} {w : Access}
    (hf : (Mapped.flattened m n).result = .ok f) (hm : a ∈ m.members) (hk : a.kind = .property q)
    (ha : a.special ≠ some .abstract) (hw : q.setter = some w) :
    n.setter a.name ≠ n.backingField a.name := by
  obtain ⟨-, hapart, -⟩ := Mapped.flattened_ok_iff_apart.mp hf
  have hown := (List.pairwise_flatMap.mp hapart).1 a hm
  rw [requests_property hk ha, hw] at hown
  exact (List.pairwise_pair.mp hown).accessor_ne_field _ rfl

theorem special_plainMember (name : String) (kind : MappedKind) :
    (plainMember name kind).special ≠ some .abstract := by
  simp [plainMember]

/-- The name of a property alone stands in the way of no other names. -/
theorem grants_alone {name : String} {r : Request} (hfield : ∀ f, r.field = some f → f ≠ name)
    (haccessor : r.accessor.name ≠ name) :
    (NameTable.declared n [plainMember name (.property q)]).Grants r := by
  have hdeclares : ∀ m ∈ [plainMember name (.property q)], ∀ b o, m.declares? n = some (b, o) →
      b = name := by
    intro m hm b o hb
    obtain rfl := List.mem_singleton.mp hm
    exact (Prod.mk.inj (Option.some.inj hb)).1.symm
  refine NameTable.grants_declared_iff.mpr ⟨fun f hf m hm o hd => ?_, fun m hm => ?_, fun o ho => ?_⟩
  · exact hfield f hf (hdeclares m hm f o hd)
  · obtain rfl := List.mem_singleton.mp hm
    exact nofun
  · obtain ⟨m, hm, hd⟩ := NameTable.exists_of_occupant?_declared ho
    exact absurd (hdeclares m hm _ o hd) haccessor

/-- A property alone in a class can be flattened if its setter does not meet its backing field. -/
theorem flattens_alone {name : String} (hn : n.SetsApart name)
    (hsetter : ∀ w, q.setter = some w → n.setter name ≠ n.backingField name) :
    ∃ f, (Mapped.flattened (plainClass [plainMember name (.property q)]) n).result = .ok f := by
  have hrequests : [plainMember name (.property q)].flatMap (·.requests n) =
      (plainMember name (.property q)).requests n := List.append_nil _
  rw [requests_property rfl (special_plainMember _ _)] at hrequests
  refine ⟨_, Mapped.flattened_ok_iff_apart.mpr ⟨fun r hr => ?_, ?_, rfl⟩⟩
  · rcases List.mem_cons.mp (hrequests ▸ hr) with rfl | hr
    · refine grants_alone (fun f hf => ?_) hn.getter
      obtain rfl := Option.some.inj hf
      exact hn.field
    · obtain ⟨w, -, rfl⟩ := Option.map_eq_some_iff.mp (Option.mem_toList.mp hr)
      exact grants_alone nofun hn.setter
  · change List.Pairwise _ ([plainMember name (.property q)].flatMap (·.requests n))
    rw [hrequests]
    cases hw : q.setter with
    | none => exact List.pairwise_singleton _ _
    | some w =>
      refine List.pairwise_pair.mpr ⟨fun f _ => nofun, fun f hf => ?_, nofun, fun he => ?_⟩
      · obtain rfl := Option.some.inj hf
        exact hsetter w hw
      · exact hn.accessors (congrArg Signature.name he)

/-- **Rules keep generated names separate** exactly if they let the backing field of no property meet
its getter or the parameter of its setter. -/
theorem Naming.keepsSeparate_iff (hn : ∀ property, n.SetsApart property)
    (hparam : n.setterParam = "value") :
    n.KeepsSeparate ↔ ¬ n.FieldMeetsGetter ∧ ¬ n.FieldMeetsParam := by
  rw [← exists_backingField_eq_getter_iff, ← exists_backingField_eq_param_iff hparam]
  constructor
  · intro h
    refine ⟨?_, ?_⟩
    · rintro ⟨property, hmeet⟩
      obtain ⟨f, hf⟩ := flattens_alone (q := ⟨"int", .pub, none, none⟩) (hn property)
        fun _ hw => nomatch hw
      have hseparate := h _ f hf _ List.mem_cons_self _ rfl (special_plainMember _ _)
      exact ((separate_expand_iff rfl (special_plainMember _ _)).mp hseparate).1 hmeet
    · rintro ⟨property, hmeet, hfree⟩
      obtain ⟨f, hf⟩ := flattens_alone (q := sharedInt) (hn property) fun _ _ => by rwa [hmeet]
      have hseparate := h _ f hf _ List.mem_cons_self _ rfl (special_plainMember _ _)
      have hsetter := ((separate_expand_iff rfl (special_plainMember _ _)).mp hseparate).2 _ rfl
      exact hsetter.2.2 hmeet.symm
  · rintro ⟨hgetter, hparam⟩ m f hf a hm q hk ha
    refine (separate_expand_iff hk ha).mpr ⟨fun he => hgetter ⟨_, he⟩, fun w hw => ?_⟩
    have hsetter := setter_ne_backingField hf hm hk ha hw
    refine ⟨hsetter.symm, (hn a.name).accessors, fun he => hparam ⟨a.name, he.symm, ?_⟩⟩
    rwa [he]

theorem Naming.not_meets_builtIn (target : Target) :
    ¬ (Profile.builtIn target).naming.FieldMeetsGetter ∧
      ¬ (Profile.builtIn target).naming.FieldMeetsParam := by
  cases target <;> decide

namespace Overlay

variable {o : Overlay} {p : Profile}

theorem setterParam_of_applyTo {change : NamingOverlay} {n n' : Naming}
    (h : change.applyTo n = .ok n') : n'.setterParam = n.setterParam := by
  unfold NamingOverlay.applyTo at h
  split at h
  · obtain ⟨methodCase, -, h⟩ := Logged.except_bind_ok_iff.mp h
    rw [← Except.ok.inj h]
  · rw [← Except.ok.inj h]

theorem setterParam_of_apply (h : o.apply = .ok p) : p.naming.setterParam = "value" := by
  have hbuiltIn : ∀ target, (Profile.builtIn target).naming.setterParam = "value" := by
    intro target
    cases target <;> rfl
  obtain ⟨target, ⟨-, hnaming⟩ | ⟨change, -, hchanged, -⟩⟩ := naming_of_apply h
  · rw [hnaming, hbuiltIn]
  · rw [setterParam_of_applyTo hchanged, hbuiltIn]

/-- **How far generated names are apart** with the rules that an overlay gives. In a class that can be
flattened, the setter of a property has neither the name of the getter nor that of the backing field.
All that takes the place of properties is separate exactly if the rules do not let the backing field
meet the getter or the parameter, as is the case if the overlay does not change them. -/
theorem generated_names_separate (h : o.apply = .ok p) :
    (∀ (m : Mapped) (f : Flat), (Mapped.flattened m p.naming).result = .ok f →
      ∀ a ∈ m.members, ∀ q w, a.kind = .property q → a.special ≠ some .abstract →
        q.setter = some w →
          (a.setter p.naming q w).name ≠ (a.getter p.naming q).name ∧
          (a.setter p.naming q w).name ≠ (a.backingField p.naming q).name) ∧
    (p.naming.KeepsSeparate ↔ ¬ p.naming.FieldMeetsGetter ∧ ¬ p.naming.FieldMeetsParam) ∧
    (o.naming = none → p.naming.KeepsSeparate) := by
  have hapart := Naming.judge_ok_iff_setsApart.mp (judge_of_apply h)
  have hiff := Naming.keepsSeparate_iff hapart (setterParam_of_apply h)
  refine ⟨fun m f hf a hm q w hk ha hw => ?_, hiff, fun hnone => hiff.mpr ?_⟩
  · exact ⟨(hapart a.name).accessors.symm, setter_ne_backingField hf hm hk ha hw⟩
  · obtain ⟨target, ⟨-, hnaming⟩ | ⟨change, hchange, -, -⟩⟩ := naming_of_apply h
    · rw [hnaming]
      exact Naming.not_meets_builtIn target
    · exact nomatch hnone.symm.trans hchange

/-- An overlay that marks backing fields by letters in front. -/
def memberOverlay : Overlay where
  target := "cpp"
  naming := some { fieldPrefix := some "m_", fieldSuffix := some "", lowerField := some true }

/-- The profile that the overlay gives. -/
def memberCpp : Profile :=
  { Profile.cpp with naming := { fieldPrefix := "m_", fieldSuffix := "" } }

theorem generated_names_separate_member :
    memberOverlay.apply = .ok memberCpp ∧ memberCpp.naming.KeepsSeparate ∧
    (∃ f, (Mapped.flattened (plainClass [propertyX]) memberCpp.naming).result = .ok f ∧
      (propertyX.setter memberCpp.naming sharedInt .prot).name ≠
        (propertyX.getter memberCpp.naming sharedInt).name ∧
      (propertyX.setter memberCpp.naming sharedInt .prot).name ≠
        (propertyX.backingField memberCpp.naming sharedInt).name) ∧
    apply { target := "python" } = .ok .python ∧ Profile.python.naming.KeepsSeparate := by
  have hmember : memberOverlay.apply = .ok memberCpp := by decide
  have hpython : apply { target := "python" } = .ok .python := by decide
  obtain ⟨hsetter, hiff, -⟩ := generated_names_separate hmember
  obtain ⟨-, -, hunchanged⟩ := generated_names_separate hpython
  refine ⟨hmember, hiff.mpr (by decide), ?_, hpython, hunchanged rfl⟩
  obtain ⟨f, hf⟩ : ∃ f, (Mapped.flattened (plainClass [propertyX]) memberCpp.naming).result =
      .ok f := ⟨_, rfl⟩
  exact ⟨f, hf, hsetter _ f hf propertyX List.mem_cons_self sharedInt .prot rfl (by decide) rfl⟩

/-- An overlay that gives backing fields the beginning of a getter. -/
def getOverlay : Overlay where
  target := "java"
  naming := some { fieldPrefix := some "get", fieldSuffix := some "", lowerField := some false }

/-- The profile that the overlay gives. -/
def getJava : Profile :=
  { Profile.java with naming := { fieldPrefix := "get", fieldSuffix := "", lowerField := false } }

/-- An overlay that gives backing fields the end of the parameter. -/
def valueOverlay : Overlay where
  target := "java"
  naming := some { fieldSuffix := some "ue" }

/-- The profile that the overlay gives. -/
def valueJava : Profile :=
  { Profile.java with naming := { fieldSuffix := "ue" } }

/-- **Generated names can meet**: of a backing field and its getter, and of a backing field and the
parameter that its setter assigns to it. -/
theorem generated_names_can_meet :
    (getOverlay.apply = .ok getJava ∧
      ∃ f, (Mapped.flattened (plainClass [propertyX]) getJava.naming).result = .ok f ∧
        f.members.map (·.name) = ["getX", "getX", "setX"]) ∧
    valueOverlay.apply = .ok valueJava ∧
      ∃ f x, (Mapped.flattened (plainClass [plainMember "Val" (.property sharedInt)])
          valueJava.naming).result = .ok f ∧
        .method x ∈ f.members ∧ x.name = "setVal" ∧ x.body = .write "value" "value" := by
  refine ⟨⟨by decide, _, rfl, by decide +kernel⟩, by decide +kernel, _,
    (plainMember "Val" (.property sharedInt)).setter valueJava.naming sharedInt .prot, rfl, ?_⟩
  decide

end Overlay

end ClassIdiom
