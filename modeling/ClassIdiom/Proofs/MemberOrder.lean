import ClassIdiom.Proofs.GeneratedNames

/-! # The order of members

Whether a class can be flattened hardly depends on the order of its members: requests are apart or
not in any order, and a backing field needs a name that nothing has. Only an accessor whose name is
taken by declared members of several kinds is judged by the first of them: behind a method, a field
or a property of that name goes unnoticed. `flattens_reordered_iff` says for which classes the order
matters: those where nothing else clashes and that would come out one way with the methods first and
the other way with the methods last. -/

namespace ClassIdiom

variable {n : Naming} {l l' : List MappedMember}

/-- The properties of the class can be replaced. -/
def Mapped.Flattens (n : Naming) (m : Mapped) : Prop := ∃ f, (Mapped.flattened m n).result = .ok f

/-- Some declared method has the name in the target. -/
def DeclaresMethod (n : Naming) (l : List MappedMember) (name : String) : Prop :=
  ∃ a ∈ l, a.declares? n = some (name, .method)

/-- Some declared field or property has the name. -/
def DeclaresData (n : Naming) (l : List MappedMember) (name : String) : Prop :=
  ∃ a ∈ l, a.declares? n = some (name, .field) ∨ a.declares? n = some (name, .property)

/-- **Nothing clashes**, accessors apart whose names are those of fields or properties. -/
structure Compatible (n : Naming) (l : List MappedMember) : Prop where
  apart : (l.flatMap (·.requests n)).Pairwise Request.Apart
  fields : ∀ r ∈ l.flatMap (·.requests n), ∀ f, r.field = some f →
    ∀ a ∈ l, ∀ o, a.declares? n ≠ some (f, o)
  accessors : ∀ r ∈ l.flatMap (·.requests n), ∀ a ∈ l, a.signature? n ≠ some r.accessor

/-- **The order of the members matters**: nothing else clashes, some accessor has the name of a
field or a property, and each one that does also has the name of a method. -/
structure OrderSensitive (n : Naming) (l : List MappedMember) : Prop where
  compatible : Compatible n l
  hidden : ∀ r ∈ l.flatMap (·.requests n),
    DeclaresData n l r.accessor.name → DeclaresMethod n l r.accessor.name
  nonempty : ∃ r ∈ l.flatMap (·.requests n), DeclaresData n l r.accessor.name

/-! ### Independence of the order -/

theorem DeclaresMethod.perm {name : String} (h : l.Perm l') :
    DeclaresMethod n l name → DeclaresMethod n l' name := by
  rintro ⟨a, ha, hd⟩
  exact ⟨a, h.mem_iff.mp ha, hd⟩

theorem DeclaresData.perm {name : String} (h : l.Perm l') :
    DeclaresData n l name → DeclaresData n l' name := by
  rintro ⟨a, ha, hd⟩
  exact ⟨a, h.mem_iff.mp ha, hd⟩

theorem requests_perm (n : Naming) (h : l.Perm l') :
    (l.flatMap (·.requests n)).Perm (l'.flatMap (·.requests n)) :=
  h.flatMap_right _

theorem Compatible.perm (h : l.Perm l') (hc : Compatible n l) : Compatible n l' where
  apart := ((requests_perm n h).pairwise_iff Request.Apart.symm).mp hc.apart
  fields r hr f hf a ha :=
    hc.fields r ((requests_perm n h).mem_iff.mpr hr) f hf a (h.mem_iff.mpr ha)
  accessors r hr a ha :=
    hc.accessors r ((requests_perm n h).mem_iff.mpr hr) a (h.mem_iff.mpr ha)

theorem OrderSensitive.perm (h : l.Perm l') (hs : OrderSensitive n l) : OrderSensitive n l' where
  compatible := hs.compatible.perm h
  hidden r hr hd :=
    (hs.hidden r ((requests_perm n h).mem_iff.mpr hr) (hd.perm h.symm)).perm h
  nonempty := by
    obtain ⟨r, hr, hd⟩ := hs.nonempty
    exact ⟨r, (requests_perm n h).mem_iff.mp hr, hd.perm h⟩

/-! ### The first of the declared names -/

/-- **A class can be flattened** exactly if nothing clashes and the first member with the name of an
accessor, if there is one, is a method. -/
theorem flattens_iff {m : Mapped} : m.Flattens n ↔
    Compatible n m.members ∧ ∀ r ∈ m.members.flatMap (·.requests n),
      ∀ o, (NameTable.declared n m.members).occupant? r.accessor.name = some o → o = .method := by
  unfold Mapped.Flattens
  simp only [Mapped.flattened_ok_iff_apart, exists_and_left, exists_eq, and_true,
    NameTable.grants_declared_iff]
  constructor
  · rintro ⟨hg, hp⟩
    exact ⟨⟨hp, fun r hr => (hg r hr).1, fun r hr => (hg r hr).2.1⟩, fun r hr => (hg r hr).2.2⟩
  · rintro ⟨hc, ho⟩
    exact ⟨fun r hr => ⟨hc.fields r hr, hc.accessors r hr, ho r hr⟩, hc.apart⟩

/-- The member is a method. -/
def MappedMember.isMethod (a : MappedMember) : Bool :=
  match a.kind with
  | .method _ => true
  | _ => false

theorem isMethod_iff {a : MappedMember} {name : String} {o : Occupant}
    (h : a.declares? n = some (name, o)) : a.isMethod = true ↔ o = .method := by
  unfold MappedMember.declares? at h
  unfold MappedMember.isMethod
  cases hk : a.kind <;> simp [hk] at h ⊢ <;> simp [h.2.symm]

/-- What declares a name is a method, a field or a property. -/
theorem declaresData_iff {name : String} :
    DeclaresData n l name ↔ ∃ a ∈ l, ∃ o, a.declares? n = some (name, o) ∧ o ≠ .method := by
  constructor
  · rintro ⟨a, ha, hd | hd⟩
    · exact ⟨a, ha, .field, hd, nofun⟩
    · exact ⟨a, ha, .property, hd, nofun⟩
  · rintro ⟨a, ha, o, hd, ho⟩
    refine ⟨a, ha, ?_⟩
    unfold MappedMember.declares? at hd ⊢
    cases hk : a.kind <;> simp_all

/-- A name that members at the front declare stands for one of them. -/
theorem occupant?_declared_front {front : List MappedMember} {a : MappedMember} {name : String}
    {o : Occupant} (ha : a ∈ front) (hd : a.declares? n = some (name, o))
    (back : List MappedMember) :
    ∃ b ∈ front, ∃ o', b.declares? n = some (name, o') ∧
      (NameTable.declared n (front ++ back)).occupant? name = some o' := by
  obtain ⟨b, hb, o', hbd, ho'⟩ := NameTable.occupant?_declared_of_mem ha hd
  refine ⟨b, hb, o', hbd, ?_⟩
  unfold NameTable.occupant? at ho' ⊢
  rw [NameTable.names_declared] at ho' ⊢
  rw [List.filterMap_append, List.lookup_append, ho']
  rfl

/-- The members with the methods first. -/
def methodsFirst (l : List MappedMember) : List MappedMember :=
  l.filter (·.isMethod) ++ l.filter (!·.isMethod)

/-- The members with the methods last. -/
def methodsLast (l : List MappedMember) : List MappedMember :=
  l.filter (!·.isMethod) ++ l.filter (·.isMethod)

theorem methodsFirst_perm (l : List MappedMember) : (methodsFirst l).Perm l :=
  List.filter_append_perm _ l

theorem methodsLast_perm (l : List MappedMember) : (methodsLast l).Perm l :=
  List.perm_append_comm.trans (methodsFirst_perm l)

variable {m : Mapped}

theorem flattens_methodsFirst (hs : OrderSensitive n l) (hl : m.members = methodsFirst l) :
    m.Flattens n := by
  have hperm := methodsFirst_perm l
  rw [flattens_iff, hl]
  refine ⟨hs.compatible.perm hperm.symm, fun r hr o ho => ?_⟩
  by_contra hne
  obtain ⟨a, ha, hd⟩ := NameTable.exists_of_occupant?_declared ho
  -- Some method has the name as well, and the methods stand before all else.
  obtain ⟨b, hb, hbd⟩ := hs.hidden r ((requests_perm n hperm).mem_iff.mp hr)
    (declaresData_iff.mpr ⟨a, hperm.mem_iff.mp ha, o, hd, hne⟩)
  have hfront : b ∈ l.filter (·.isMethod) := List.mem_filter.mpr ⟨hb, (isMethod_iff hbd).mpr rfl⟩
  obtain ⟨c, hc, o', hcd, ho'⟩ := occupant?_declared_front hfront hbd (l.filter (!·.isMethod))
  have he : o' = o := Option.some.inj (ho'.symm.trans ho)
  exact hne (by rw [← he]; exact (isMethod_iff hcd).mp (List.mem_filter.mp hc).2)

theorem not_flattens_methodsLast (hs : OrderSensitive n l) (hl : m.members = methodsLast l) :
    ¬ m.Flattens n := by
  have hperm := methodsLast_perm l
  obtain ⟨r, hr, hd⟩ := hs.nonempty
  obtain ⟨a, ha, o, hao, ho⟩ := declaresData_iff.mp hd
  have hdata : ∀ {c : MappedMember} {o : Occupant}, c.declares? n = some (r.accessor.name, o) →
      ((!c.isMethod) = true ↔ o ≠ .method) := by
    intro c o hc
    rw [Bool.not_eq_true', ← Bool.not_eq_true, isMethod_iff hc]
  have hfront : a ∈ l.filter (!·.isMethod) := List.mem_filter.mpr ⟨ha, (hdata hao).mpr ho⟩
  obtain ⟨c, hc, o', hcd, ho'⟩ := occupant?_declared_front hfront hao (l.filter (·.isMethod))
  intro hm
  rw [flattens_iff, hl] at hm
  exact (hdata hcd).mp (List.mem_filter.mp hc).2
    (hm.2 r ((requests_perm n hperm).mem_iff.mpr hr) o' ho')

/-- A class for which the order does not matter can be flattened in any order if it can in one. -/
theorem Mapped.Flattens.reordered {m m' : Mapped} (h : m.members.Perm m'.members)
    (hs : ¬ OrderSensitive n m.members) (hm : m.Flattens n) : m'.Flattens n := by
  obtain ⟨hc, hfirst⟩ := flattens_iff.mp hm
  -- Where a field or property has the name of an accessor, a method stands before it.
  have hhidden : ∀ r ∈ m.members.flatMap (·.requests n),
      DeclaresData n m.members r.accessor.name → DeclaresMethod n m.members r.accessor.name := by
    intro r hr hdata
    obtain ⟨a, ha, o, hd, -⟩ := declaresData_iff.mp hdata
    obtain ⟨b, hb, o', hbd, ho'⟩ := NameTable.occupant?_declared_of_mem ha hd
    rw [hfirst r hr o' ho'] at hbd
    exact ⟨b, hb, hbd⟩
  refine flattens_iff.mpr ⟨hc.perm h, fun r hr o ho => ?_⟩
  by_contra hne
  obtain ⟨a, ha, hd⟩ := NameTable.exists_of_occupant?_declared ho
  have hdata : DeclaresData n m.members r.accessor.name :=
    declaresData_iff.mpr ⟨a, h.mem_iff.mpr ha, o, hd, hne⟩
  exact hs ⟨hc, hhidden, r, (requests_perm n h).mem_iff.mpr hr, hdata⟩

/-- **When the order of members matters.** All orders of the members of a class give the same answer
to whether it can be flattened, unless the class is order-sensitive. -/
theorem flattens_reordered_iff (n : Naming) (m : Mapped) :
    (∀ l, l.Perm m.members → (Mapped.Flattens n { m with members := l } ↔ m.Flattens n)) ↔
      ¬ OrderSensitive n m.members := by
  constructor
  · intro h hs
    have hfirst := (h _ (methodsFirst_perm m.members)).mp (flattens_methodsFirst hs rfl)
    exact not_flattens_methodsLast hs rfl ((h _ (methodsLast_perm m.members)).mpr hfirst)
  · intro hs l hl
    refine ⟨fun h => h.reordered hl fun hs' => hs (hs'.perm hl), fun h => h.reordered hl.symm hs⟩

/-- A field with the name of a getter. -/
def fieldGetX : MappedMember := plainMember "getX" (.field { type := "int" })

theorem flattens_depends_on_order :
    [fieldGetX, getXOverload, propertyX].Perm [getXOverload, fieldGetX, propertyX] ∧
      Mapped.Flattens Profile.java.naming (plainClass [getXOverload, fieldGetX, propertyX]) ∧
      ¬ Mapped.Flattens Profile.java.naming (plainClass [fieldGetX, getXOverload, propertyX]) := by
  refine ⟨.swap .., ⟨_, rfl⟩, ?_⟩
  rintro ⟨f, hf⟩
  have hclash : (Mapped.flattened (plainClass [fieldGetX, getXOverload, propertyX])
      Profile.java.naming).result = .error (nameTaken "Point" "X" "getX" .field) := rfl
  rw [hclash] at hf
  exact nomatch hf

end ClassIdiom
