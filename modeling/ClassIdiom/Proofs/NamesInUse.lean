import ClassIdiom.Proofs.MemberOrder

/-! # Names that are really in use

A class that cannot be flattened has a property that asks for a name in use. The table of names does
not say who uses a name: it has one entry for all that share it, and grows from property to property.
`NameInUse` and `AccessorInUse` say it of the members alone, those that are declared and those that
are generated for earlier properties, and each entry of the table is accounted for by one of them
(`nameInUse_of_occupant?`, `accessorInUse_of_mem_methods`).

* `Mapped.collision_justified`: every failure names a property, a name that this property asks for
  and what has that name; there is none without properties, and none on account of a method unless
  it has the name of a backing field or the name and the parameter types of an accessor. -/

namespace ClassIdiom

/-! ### Users of a name -/

/-- **A name is in use** among the members `l`, where names have been generated for the properties
among the `earlier` ones: a field, a property or a method is declared under it, or it is the name of
a backing field or of an accessor. -/
inductive NameInUse (n : Naming) (l earlier : List MappedMember) (name : String) :
    Occupant → Prop where
  | field {b : MappedMember} {f : Field} (mem : b ∈ l) (kind : b.kind = .field f)
      (eq : b.name = name) : NameInUse n l earlier name .field
  | property {b : MappedMember} {p : MappedProperty} (mem : b ∈ l) (kind : b.kind = .property p)
      (eq : b.name = name) : NameInUse n l earlier name .property
  | method {b : MappedMember} {x : Method} (mem : b ∈ l) (kind : b.kind = .method x)
      (eq : n.method b.name = name) : NameInUse n l earlier name .method
  | backingField {b : MappedMember} {p : MappedProperty} (mem : b ∈ earlier)
      (kind : b.kind = .property p) (concrete : b.special ≠ some .abstract)
      (eq : n.backingField b.name = name) : NameInUse n l earlier name .generated
  | getter {b : MappedMember} {p : MappedProperty} (mem : b ∈ earlier)
      (kind : b.kind = .property p) (eq : n.getter b.name = name) :
      NameInUse n l earlier name .method
  | setter {b : MappedMember} {p : MappedProperty} {w : Access} (mem : b ∈ earlier)
      (kind : b.kind = .property p) (setter : p.setter = some w)
      (eq : n.setter b.name = name) : NameInUse n l earlier name .method

/-- **An accessor is in use**: its name is that of a declared field or property or of a backing
field, or a method has its name and its parameter types, be it declared or generated. -/
inductive AccessorInUse (n : Naming) (l earlier : List MappedMember) (s : Signature) :
    Occupant → Prop where
  | field {b : MappedMember} {f : Field} (mem : b ∈ l) (kind : b.kind = .field f)
      (eq : b.name = s.name) : AccessorInUse n l earlier s .field
  | property {b : MappedMember} {p : MappedProperty} (mem : b ∈ l) (kind : b.kind = .property p)
      (eq : b.name = s.name) : AccessorInUse n l earlier s .property
  | backingField {b : MappedMember} {p : MappedProperty} (mem : b ∈ earlier)
      (kind : b.kind = .property p) (concrete : b.special ≠ some .abstract)
      (eq : n.backingField b.name = s.name) : AccessorInUse n l earlier s .generated
  | method {b : MappedMember} {x : Method} (mem : b ∈ l) (kind : b.kind = .method x)
      (eq : ⟨n.method b.name, x.params.map (·.type)⟩ = s) : AccessorInUse n l earlier s .method
  | getter {b : MappedMember} {p : MappedProperty} (mem : b ∈ earlier)
      (kind : b.kind = .property p) (eq : ⟨n.getter b.name, []⟩ = s) :
      AccessorInUse n l earlier s .method
  | setter {b : MappedMember} {p : MappedProperty} {w : Access} (mem : b ∈ earlier)
      (kind : b.kind = .property p) (setter : p.setter = some w)
      (eq : ⟨n.setter b.name, [p.type]⟩ = s) : AccessorInUse n l earlier s .method

/-- **A property asks for a name in use**: for its backing field, unless it is abstract, for its
getter, or for its setter, if it has one; the setter must not have the name of the backing field of
the same property either. -/
inductive AsksInUse (n : Naming) (l earlier : List MappedMember) (a : MappedMember)
    (p : MappedProperty) : String → Occupant → Prop where
  | field {o : Occupant} (concrete : a.special ≠ some .abstract)
      (inUse : NameInUse n l earlier (n.backingField a.name) o) :
      AsksInUse n l earlier a p (n.backingField a.name) o
  | getter {o : Occupant} (inUse : AccessorInUse n l earlier ⟨n.getter a.name, []⟩ o) :
      AsksInUse n l earlier a p (n.getter a.name) o
  | setter {o : Occupant} {w : Access} (setter : p.setter = some w)
      (inUse : AccessorInUse n l earlier ⟨n.setter a.name, [p.type]⟩ o) :
      AsksInUse n l earlier a p (n.setter a.name) o
  | ownField {w : Access} (setter : p.setter = some w) (concrete : a.special ≠ some .abstract)
      (eq : n.backingField a.name = n.setter a.name) :
      AsksInUse n l earlier a p (n.setter a.name) .generated

/-- **A method gets in the way of a property**: it has the name of the backing field, or the name
and the parameter types of an accessor. -/
inductive Obstructs (n : Naming) (s : Signature) (a : MappedMember) (p : MappedProperty) :
    Prop where
  | field (concrete : a.special ≠ some .abstract) (eq : n.backingField a.name = s.name)
  | getter (eq : ⟨n.getter a.name, []⟩ = s)
  | setter {w : Access} (setter : p.setter = some w) (eq : ⟨n.setter a.name, [p.type]⟩ = s)

variable {n : Naming} {l earlier : List MappedMember} {a : MappedMember} {p : MappedProperty}
  {r : Request} {name : String} {s : Signature} {o : Occupant}

/-! ### Requests by name -/

namespace MappedMember

/-- The first request of a property, for its backing field and its getter. -/
def readRequest (n : Naming) (a : MappedMember) : Request :=
  ⟨if a.special = some .abstract then none else some (n.backingField a.name), ⟨n.getter a.name, []⟩⟩

/-- The second request of a property, for its setter. -/
def writeRequest (n : Naming) (a : MappedMember) (p : MappedProperty) : Request :=
  ⟨none, ⟨n.setter a.name, [p.type]⟩⟩

theorem requests_of_property (hk : a.kind = .property p) :
    a.requests n = a.readRequest n :: (p.setter.map fun _ => a.writeRequest n p).toList := by
  unfold requests readRequest writeRequest isAbstract
  rw [hk]
  simp only [beq_iff_eq]
  rfl

theorem exists_property_of_mem_requests (hr : r ∈ a.requests n) : ∃ p, a.kind = .property p := by
  unfold requests at hr
  split at hr
  · next p hk => exact ⟨p, hk⟩
  · exact nomatch hr

theorem mem_requests (hk : a.kind = .property p) :
    r ∈ a.requests n ↔
      r = a.readRequest n ∨ ∃ w, p.setter = some w ∧ r = a.writeRequest n p := by
  rw [requests_of_property hk]
  cases p.setter <;> simp

theorem field_readRequest :
    (a.readRequest n).field = some name ↔
      a.special ≠ some .abstract ∧ n.backingField a.name = name := by
  unfold readRequest
  by_cases h : a.special = some .abstract <;> simp [h]

/-- What a request for a backing field says of the property. -/
theorem field_of_mem_requests (hk : a.kind = .property p) (hr : r ∈ a.requests n)
    (hf : r.field = some name) : a.special ≠ some .abstract ∧ n.backingField a.name = name := by
  rcases (mem_requests hk).mp hr with rfl | ⟨w, -, rfl⟩
  · exact field_readRequest.mp hf
  · exact nomatch hf

theorem nameInUse_of_declares? (ha : a ∈ l) (h : a.declares? n = some (name, o)) :
    NameInUse n l earlier name o := by
  unfold declares? at h
  cases hk : a.kind with
  | field f =>
    obtain ⟨rfl, rfl⟩ : a.name = name ∧ .field = o := by simpa [hk] using h
    exact .field ha hk rfl
  | property p =>
    obtain ⟨rfl, rfl⟩ : a.name = name ∧ .property = o := by simpa [hk] using h
    exact .property ha hk rfl
  | method x =>
    obtain ⟨rfl, rfl⟩ : n.method a.name = name ∧ .method = o := by simpa [hk] using h
    exact .method ha hk rfl
  | constructor c => simp [hk] at h

theorem accessorInUse_of_signature? (ha : a ∈ l) (h : a.signature? n = some s) :
    AccessorInUse n l earlier s .method := by
  unfold signature? at h
  split at h
  · next x hk => exact .method ha hk (Option.some.inj h)
  · exact nomatch h

end MappedMember

theorem nameInUse_of_field (ha : a ∈ earlier) (hr : r ∈ a.requests n) (hf : r.field = some name) :
    NameInUse n l earlier name .generated := by
  obtain ⟨p, hk⟩ := MappedMember.exists_property_of_mem_requests hr
  obtain ⟨hconcrete, hname⟩ := MappedMember.field_of_mem_requests hk hr hf
  exact .backingField ha hk hconcrete hname

theorem nameInUse_of_accessor (ha : a ∈ earlier) (hr : r ∈ a.requests n) :
    NameInUse n l earlier r.accessor.name .method := by
  obtain ⟨p, hk⟩ := MappedMember.exists_property_of_mem_requests hr
  rcases (MappedMember.mem_requests hk).mp hr with rfl | ⟨w, hw, rfl⟩
  · exact .getter ha hk rfl
  · exact .setter ha hk hw rfl

theorem accessorInUse_of_request (ha : a ∈ earlier) (hr : r ∈ a.requests n) :
    AccessorInUse n l earlier r.accessor .method := by
  obtain ⟨p, hk⟩ := MappedMember.exists_property_of_mem_requests hr
  rcases (MappedMember.mem_requests hk).mp hr with rfl | ⟨w, hw, rfl⟩
  · exact .getter ha hk rfl
  · exact .setter ha hk hw rfl

/-- What is no method stands in the way of an accessor by its name alone. -/
theorem NameInUse.accessor (h : NameInUse n l earlier s.name o) (ho : o ≠ .method) :
    AccessorInUse n l earlier s o := by
  cases h with
  | field mem kind eq => exact .field mem kind eq
  | property mem kind eq => exact .property mem kind eq
  | backingField mem kind concrete eq => exact .backingField mem kind concrete eq
  | method | getter | setter => exact absurd rfl ho

/-! ### The entries of the table -/

namespace NameTable

variable {t : NameTable} {rs : List Request}

theorem occupant?_grantAll (h : (t.grantAll rs).occupant? name = some o) :
    t.occupant? name = some o ∨
      ∃ r ∈ rs, (r.field = some name ∧ o = .generated) ∨ (r.accessor.name = name ∧ o = .method) := by
  induction rs generalizing t with
  | nil => exact .inl h
  | cons r rs ih =>
    rcases ih h with h | ⟨r', hr', h⟩
    · rw [occupant?_grant, Option.or_eq_some_iff, Option.or_eq_some_iff] at h
      rcases h with (h | ⟨-, h⟩) | ⟨-, h⟩
      · exact .inl h
      · obtain ⟨hf, ho⟩ := Option.ite_none_right_eq_some.mp h
        exact .inr ⟨r, List.mem_cons_self, .inl ⟨hf, (Option.some.inj ho).symm⟩⟩
      · obtain ⟨hn, ho⟩ := Option.ite_none_right_eq_some.mp h
        exact .inr ⟨r, List.mem_cons_self, .inr ⟨hn.symm, (Option.some.inj ho).symm⟩⟩
    · exact .inr ⟨r', List.mem_cons_of_mem _ hr', h⟩

theorem methods_grantAll (t : NameTable) (rs : List Request) :
    (t.grantAll rs).methods = t.methods ++ rs.map (·.accessor) := by
  induction rs generalizing t with
  | nil => simp [grantAll]
  | cons r rs ih =>
    change ((t.grant r).grantAll rs).methods = _
    rw [ih, methods_grant, List.append_assoc]
    rfl

/-- **A name in the table** is in use, or asked for by a request of the property at hand. -/
theorem nameInUse_of_occupant?
    (h : ((declared n l).grantAll (earlier.flatMap (·.requests n) ++ rs)).occupant? name =
      some o) :
    NameInUse n l earlier name o ∨
      ∃ r ∈ rs, (r.field = some name ∧ o = .generated) ∨ (r.accessor.name = name ∧ o = .method) := by
  rcases occupant?_grantAll h with h | ⟨r, hr, h⟩
  · obtain ⟨b, hb, hdeclares⟩ := exists_of_occupant?_declared h
    exact .inl (MappedMember.nameInUse_of_declares? hb hdeclares)
  · rcases List.mem_append.mp hr with hr | hr
    · obtain ⟨b, hb, hr⟩ := List.mem_flatMap.mp hr
      rcases h with ⟨hf, rfl⟩ | ⟨rfl, rfl⟩
      · exact .inl (nameInUse_of_field hb hr hf)
      · exact .inl (nameInUse_of_accessor hb hr)
    · exact .inr ⟨r, hr, h⟩

/-- **A method in the table** is in use, or asked for by a request of the property at hand. -/
theorem accessorInUse_of_mem_methods
    (h : s ∈ ((declared n l).grantAll (earlier.flatMap (·.requests n) ++ rs)).methods) :
    AccessorInUse n l earlier s .method ∨ ∃ r ∈ rs, r.accessor = s := by
  rw [methods_grantAll, methods_declared, List.map_append] at h
  simp only [List.mem_append, List.mem_filterMap, List.mem_map] at h
  rcases h with ⟨b, hb, hs⟩ | ⟨r, hr, rfl⟩ | ⟨r, hr, rfl⟩
  · exact .inl (MappedMember.accessorInUse_of_signature? hb hs)
  · obtain ⟨b, hb, hr⟩ := List.mem_flatMap.mp hr
    exact .inl (accessorInUse_of_request hb hr)
  · exact .inr ⟨r, hr, rfl⟩

theorem accessorClash?_eq_some (h : t.accessorClash? s = some o) :
    (o ≠ .method ∧ t.occupant? s.name = some o) ∨ (o = .method ∧ s ∈ t.methods) := by
  unfold accessorClash? at h
  split at h
  · split at h
    · next hs => exact .inr ⟨(Option.some.inj h).symm, hs⟩
    · exact nomatch h
  · next hne => exact .inl ⟨fun ho => hne (ho ▸ h), h⟩

/-- **An accessor that clashes** is in use, or its name is that of the backing field or its signature
that of an accessor which the property at hand has asked for. -/
theorem accessorInUse_of_accessorClash?
    (h : ((declared n l).grantAll (earlier.flatMap (·.requests n) ++ rs)).accessorClash? s =
      some o) :
    AccessorInUse n l earlier s o ∨
      ∃ r ∈ rs, (r.field = some s.name ∧ o = .generated) ∨ r.accessor = s := by
  rcases accessorClash?_eq_some h with ⟨hne, ho⟩ | ⟨rfl, hs⟩
  · rcases nameInUse_of_occupant? ho with h | ⟨r, hr, ⟨hf, rfl⟩ | ⟨-, rfl⟩⟩
    · exact .inl (h.accessor hne)
    · exact .inr ⟨r, hr, .inl ⟨hf, rfl⟩⟩
    · exact absurd rfl hne
  · rcases accessorInUse_of_mem_methods hs with h | ⟨r, hr, h⟩
    · exact .inl h
    · exact .inr ⟨r, hr, .inr h⟩

/-- **A request that is refused** is one for a name in use. -/
theorem asksInUse_of_refuses {rs' : List Request} (hk : a.kind = .property p)
    (hrequests : a.requests n = rs ++ r :: rs')
    (h : ((declared n l).grantAll (earlier.flatMap (·.requests n) ++ rs)).Refuses r name o) :
    AsksInUse n l earlier a p name o := by
  rw [MappedMember.requests_of_property hk] at hrequests
  cases rs with
  | nil =>
    -- The backing field and the getter are judged before either is claimed.
    obtain ⟨rfl, -⟩ := List.cons.inj hrequests
    rcases h with ⟨hf, ho⟩ | ⟨rfl, hclash⟩
    · obtain ⟨hconcrete, rfl⟩ := MappedMember.field_readRequest.mp hf
      rcases nameInUse_of_occupant? ho with h | ⟨_, hr, -⟩
      · exact .field hconcrete h
      · exact nomatch hr
    · rcases accessorInUse_of_accessorClash? hclash with h | ⟨_, hr, -⟩
      · exact .getter h
      · exact nomatch hr
  | cons r₀ rs =>
    obtain ⟨rfl, hrest⟩ := List.cons.inj hrequests
    cases hw : p.setter with
    | none => simp [hw] at hrest
    | some w =>
      obtain ⟨rfl, rfl, -⟩ : rs = [] ∧ a.writeRequest n p = r ∧ rs' = [] := by
        cases rs <;> simp_all
      rcases h with ⟨hf, -⟩ | ⟨rfl, hclash⟩
      · exact nomatch hf
      · rcases accessorInUse_of_accessorClash? hclash with h | ⟨r₀, hr₀, h⟩
        · exact .setter hw h
        · obtain rfl := List.mem_singleton.mp hr₀
          rcases h with ⟨hf, rfl⟩ | hs
          · obtain ⟨hconcrete, hname⟩ := MappedMember.field_readRequest.mp hf
            exact .ownField hw hconcrete hname
          · -- A getter has no parameters, so its signature is not that of a setter.
            exact nomatch congrArg Signature.paramTypes hs

end NameTable

/-! ### Without a method -/

theorem NameTable.occupant?_declared_insert {before after : List MappedMember}
    (h : (declared n (before ++ a :: after)).occupant? name = some o) :
    (declared n (before ++ after)).occupant? name = some o ∨ a.declares? n = some (name, o) := by
  unfold occupant? at h ⊢
  rw [names_declared] at h ⊢
  rw [List.filterMap_append, List.lookup_append] at h ⊢
  cases hb : (before.filterMap (·.declares? n)).lookup name with
  | some o' =>
    rw [hb, Option.some_or] at h
    rw [Option.some_or]
    exact .inl h
  | none =>
    rw [hb, Option.none_or] at h
    rw [Option.none_or]
    cases hd : a.declares? n with
    | none => exact .inl (by rwa [List.filterMap_cons_none hd] at h)
    | some e =>
      obtain ⟨name', o'⟩ := e
      rw [List.filterMap_cons_some hd, List.lookup_cons] at h
      split at h
      · next heq =>
        obtain rfl : name = name' := by simpa using heq
        exact .inr (by rw [Option.some.inj h])
      · exact .inl h

/-- **Putting in a method** keeps a class that can be flattened so, unless it gets in the way of a
property. -/
theorem Mapped.Flattens.insert {m : Mapped} {before after : List MappedMember} {x : Method}
    (hm : m.members = before ++ a :: after) (hk : a.kind = .method x)
    (h : Mapped.Flattens n { m with members := before ++ after })
    (hfree : ∀ b ∈ m.members, ∀ p, b.kind = .property p →
      ¬ Obstructs n ⟨n.method a.name, x.params.map (·.type)⟩ b p) : m.Flattens n := by
  obtain ⟨hcompatible, hfirst⟩ := flattens_iff.mp h
  have hdeclares : a.declares? n = some (n.method a.name, .method) := by
    unfold MappedMember.declares?
    rw [hk]
  have hsignature : a.signature? n = some ⟨n.method a.name, x.params.map (·.type)⟩ := by
    unfold MappedMember.signature?
    rw [hk]
    rfl
  have hrequests : m.members.flatMap (·.requests n) = (before ++ after).flatMap (·.requests n) := by
    have hnil : a.requests n = [] := NameTable.requests_eq_nil (by simp [hk])
    simp [hm, hnil]
  have hothers : ∀ b ∈ m.members, b = a ∨ b ∈ before ++ after := by
    intro b hb
    rw [hm] at hb
    simpa [or_left_comm] using hb
  -- No request is for the name or the signature of the new method.
  have hnew : ∀ r ∈ m.members.flatMap (·.requests n), r.field ≠ some (n.method a.name) ∧
      r.accessor ≠ ⟨n.method a.name, x.params.map (·.type)⟩ := by
    intro r hr
    obtain ⟨b, hb, hr⟩ := List.mem_flatMap.mp hr
    obtain ⟨p, hp⟩ := MappedMember.exists_property_of_mem_requests hr
    have hb := hfree b hb p hp
    constructor
    · intro hf
      obtain ⟨hconcrete, hname⟩ := MappedMember.field_of_mem_requests hp hr hf
      exact hb (.field hconcrete hname)
    · intro hs
      rcases (MappedMember.mem_requests hp).mp hr with rfl | ⟨w, hw, rfl⟩
      · exact hb (.getter hs)
      · exact hb (.setter hw hs)
  refine flattens_iff.mpr ⟨⟨?_, fun r hr f hf b hb o hd => ?_, fun r hr b hb hs => ?_⟩,
    fun r hr o ho => ?_⟩
  · rw [hrequests]
    exact hcompatible.apart
  · rcases hothers b hb with rfl | hb
    · obtain ⟨rfl, -⟩ := Prod.mk.inj (Option.some.inj (hdeclares.symm.trans hd))
      exact (hnew r hr).1 hf
    · exact hcompatible.fields r (hrequests ▸ hr) f hf b hb o hd
  · rcases hothers b hb with rfl | hb
    · exact (hnew r hr).2 (Option.some.inj (hs.symm.trans hsignature))
    · exact hcompatible.accessors r (hrequests ▸ hr) b hb hs
  · rw [hm] at ho
    rcases NameTable.occupant?_declared_insert ho with ho | hd
    · exact hfirst r (hrequests ▸ hr) o ho
    · exact (Prod.mk.inj (Option.some.inj (hdeclares.symm.trans hd))).2.symm

/-! ### Failures of the second stage -/

/-- **Every collision has its cause.** If a class cannot be flattened, the failure names one of its
properties, a name that this property asks for, and what has the name already. A class without
properties can always be flattened, and one that cannot be only because of a method has a property
that asks for the name of the method as a backing field, or for its name and parameter types as an
accessor. -/
theorem Mapped.collision_justified (m : Mapped) (n : Naming) :
    (∀ e, (Mapped.flattened m n).result = .error e →
      ∃ before a after p name o, m.members = before ++ a :: after ∧ a.kind = .property p ∧
        e = ⟨m.name, some a.name, .collision name (o.word ++ " `" ++ name ++ "`")⟩ ∧
        AsksInUse n m.members before a p name o) ∧
    ((∀ a ∈ m.members, ∀ p, a.kind ≠ .property p) → m.Flattens n) ∧
    ∀ before a after x, m.members = before ++ a :: after → a.kind = .method x →
      Mapped.Flattens n { m with members := before ++ after } → ¬ m.Flattens n →
      ∃ b ∈ m.members, ∃ p, b.kind = .property p ∧
        Obstructs n ⟨n.method a.name, x.params.map (·.type)⟩ b p := by
  have hcause : ∀ e, (Mapped.flattened m n).result = .error e →
      ∃ before a after p name o, m.members = before ++ a :: after ∧ a.kind = .property p ∧
        e = nameTaken m.name a.name name o ∧ AsksInUse n m.members before a p name o := by
    intro e he
    obtain ⟨before, a, after, rs, r, rs', name, o, hm, hrequests, hrefuses, rfl⟩ :=
      NameTable.foldlM_claimGenerated_error (Mapped.flattened_error_iff.mp he)
    have hr : r ∈ a.requests n := by simp [hrequests]
    obtain ⟨p, hk⟩ := MappedMember.exists_property_of_mem_requests hr
    exact ⟨before, a, after, p, name, o, hm, hk, rfl,
      NameTable.asksInUse_of_refuses hk hrequests hrefuses⟩
  refine ⟨hcause, fun hnone => ?_, fun before a after x hm hk hrest hfails => ?_⟩
  · cases he : (Mapped.flattened m n).result with
    | ok f => exact ⟨f, he⟩
    | error e =>
      obtain ⟨before, a, after, p, -, -, hm, hk, -⟩ := hcause e he
      exact absurd hk (hnone a (by simp [hm]) p)
  · by_contra hfree
    push Not at hfree
    exact hfails (hrest.insert hm hk hfree)

/-- A field with the name that the setter of `propertyX` has in Java. -/
def fieldSetX : MappedMember := plainMember "setX" (.field { type := "int" })

/-- A method that gets the name and the parameter types of the setter of `propertyX`. -/
def methodSetX : MappedMember := plainMember "SetX" (.method { params := [⟨"x", "int"⟩] })

theorem Mapped.collision_justified_point :
    (Mapped.flattened (plainClass [getXOverload, fieldSetX, propertyX]) Profile.java.naming).result =
        .error ⟨"Point", some "X", .collision "setX" "field `setX`"⟩ ∧
      (∃ before a after p name o,
        [getXOverload, fieldSetX, propertyX] = before ++ a :: after ∧ a.kind = .property p ∧
        (⟨"Point", some "X", .collision "setX" "field `setX`"⟩ : Failure) =
          ⟨"Point", some a.name, .collision name (o.word ++ " `" ++ name ++ "`")⟩ ∧
        AsksInUse Profile.java.naming [getXOverload, fieldSetX, propertyX] before a p name o) ∧
      Mapped.Flattens Profile.java.naming (plainClass [getXOverload, fieldSetX]) ∧
      Mapped.Flattens Profile.java.naming (plainClass [propertyX]) ∧
      ¬ Mapped.Flattens Profile.java.naming (plainClass [methodSetX, propertyX]) ∧
      ∃ b ∈ [methodSetX, propertyX], ∃ p, b.kind = .property p ∧
        Obstructs Profile.java.naming ⟨Profile.java.naming.method "SetX", ["int"]⟩ b p := by
  have hfails : (Mapped.flattened (plainClass [getXOverload, fieldSetX, propertyX])
      Profile.java.naming).result =
        .error ⟨"Point", some "X", .collision "setX" "field `setX`"⟩ := by decide
  have halone : Mapped.Flattens Profile.java.naming (plainClass [propertyX]) := ⟨_, rfl⟩
  have hmet : ¬ Mapped.Flattens Profile.java.naming (plainClass [methodSetX, propertyX]) := by
    rintro ⟨f, hf⟩
    have herror : (Mapped.flattened (plainClass [methodSetX, propertyX])
        Profile.java.naming).result =
          .error ⟨"Point", some "X", .collision "setX" "method `setX`"⟩ := by decide
    exact nomatch herror.symm.trans hf
  refine ⟨hfails, (Mapped.collision_justified _ _).1 _ hfails,
    (Mapped.collision_justified _ _).2.1 (by simp [plainClass, plainMember, getXOverload, fieldSetX]),
    halone, hmet, ?_⟩
  exact (Mapped.collision_justified (plainClass [methodSetX, propertyX]) _).2.2 [] methodSetX
    [propertyX] _ rfl rfl halone hmet

end ClassIdiom
