import ClassIdiom.Proofs.NameTable
import ClassIdiom.Profile.BuiltIn

/-! # Names of generated members

If a class can be flattened, what its properties generate can be told from all else:

* `accessor_signature_unique`: no other method of the class, declared or generated, has the name
  and the parameter types of an accessor;
* `backingField_name_unshared`: no other field, no method that comes from another member and no
  setter of its own property has the name of a backing field.

Both are read off the requests: each member of the class comes from a request or from a name that
is declared (`field_mem_expand`, `method_mem_expand`). -/

namespace ClassIdiom

variable {n : Naming} {a b : MappedMember}

/-! ### Where members come from -/

namespace MappedMember

theorem field_mem_expand {x : FlatField} (h : FlatMember.field x ∈ a.expand n) :
    (x.origin = .declared ∧ a.declares? n = some (x.name, .field)) ∨
      (x.origin ≠ .declared ∧ ∃ r ∈ a.requests n, r.field = some x.name) := by
  unfold expand at h
  cases hk : a.kind with
  | field f =>
    rw [hk] at h
    obtain rfl := FlatMember.field.inj (List.mem_singleton.mp h)
    exact .inl ⟨rfl, by unfold declares?; rw [hk]⟩
  | method x => simp [hk] at h
  | constructor c => simp [hk] at h
  | property p =>
    rw [hk] at h
    unfold requests
    rw [hk]
    simp only [expandProperty, List.mem_append, List.mem_cons, Option.mem_toList,
      Option.map_eq_some_iff, reduceCtorEq, and_false, exists_false, or_false] at h
    split at h
    · exact nomatch h
    · next ha =>
      obtain rfl := FlatMember.field.inj (List.mem_singleton.mp h)
      refine .inr ⟨nofun, _, List.mem_cons_self, ?_⟩
      simp [ha, backingField]

theorem method_mem_expand {x : FlatMethod} (h : FlatMember.method x ∈ a.expand n) :
    (x.origin = .declared ∧ a.signature? n = some (Signature.of x.name x.params)) ∨
      (x.origin ≠ .declared ∧ ∃ r ∈ a.requests n, r.accessor = Signature.of x.name x.params) := by
  unfold expand at h
  cases hk : a.kind with
  | field f => simp [hk] at h
  | method y =>
    rw [hk] at h
    obtain rfl := FlatMember.method.inj (List.mem_singleton.mp h)
    exact .inl ⟨rfl, by unfold signature?; rw [hk]⟩
  | constructor c => simp [hk] at h
  | property p =>
    rw [hk] at h
    unfold requests
    rw [hk]
    right
    rcases List.mem_append.mp h with h | h
    · split at h <;> simp at h
    · rcases List.mem_cons.mp h with h | h
      · obtain rfl := FlatMember.method.inj h
        exact ⟨nofun, _, List.mem_cons_self, rfl⟩
      · obtain ⟨w, hw, h⟩ := Option.map_eq_some_iff.mp (Option.mem_toList.mp h)
        obtain rfl := FlatMember.method.inj h
        refine ⟨nofun, ⟨none, (a.setter n p w).signature⟩, List.mem_cons_of_mem _ ?_, rfl⟩
        rw [hw]
        exact List.mem_singleton.mpr rfl

end MappedMember

variable {m : Mapped} {f : Flat}

/-! ### Accessors -/

/-- Two members of a class are not methods of one name and the same parameter types, unless both
are declared. -/
def FlatMember.Distinct (x y : FlatMember) : Prop :=
  ∀ u v, x = .method u → y = .method v → u.origin ≠ .declared ∨ v.origin ≠ .declared →
    Signature.of u.name u.params ≠ Signature.of v.name v.params

theorem FlatMember.Distinct.symm {x y : FlatMember} (h : x.Distinct y) : y.Distinct x :=
  fun u v hy hx ho he => h v u hx hy ho.symm he.symm

theorem distinct_of_field (x : FlatField) (y : FlatMember) : (FlatMember.field x).Distinct y :=
  fun _ _ hx => nomatch hx

/-- The members that one member is expanded to are distinct: a setter has a parameter, a getter has
none. -/
theorem pairwise_distinct_expand (n : Naming) (a : MappedMember) :
    (a.expand n).Pairwise FlatMember.Distinct := by
  unfold MappedMember.expand
  split
  · exact List.pairwise_singleton _ _
  · exact List.pairwise_singleton _ _
  · exact List.pairwise_singleton _ _
  · next p _ =>
    have haccessors : (FlatMember.method (a.getter n p) ::
        (p.setter.map fun w => FlatMember.method (a.setter n p w)).toList).Pairwise
          FlatMember.Distinct := by
      cases p.setter with
      | none => exact List.pairwise_singleton _ _
      | some w =>
        refine List.pairwise_pair.mpr fun u v hu hv _ he => ?_
        obtain rfl := FlatMember.method.inj hu
        obtain rfl := FlatMember.method.inj hv
        have harity := congrArg Signature.arity he
        simp [Signature.arity, Signature.of, MappedMember.getter, MappedMember.setter,
          MappedMember.setterParams] at harity
    unfold MappedMember.expandProperty
    split
    · exact haccessors
    · exact List.pairwise_cons.mpr ⟨fun y _ => distinct_of_field _ y, haccessors⟩

theorem pairwise_distinct_members (hf : (Mapped.flattened m n).result = .ok f) :
    f.members.Pairwise FlatMember.Distinct := by
  obtain ⟨hg, hp, rfl⟩ := Mapped.flattened_ok_iff_apart.mp hf
  -- What is declared has its signature in the table, which then refuses it to an accessor.
  have hdeclared : ∀ a ∈ m.members, ∀ b ∈ m.members, ∀ r ∈ a.requests n,
      b.signature? n ≠ some r.accessor := by
    intro a ha b hb r hr
    have hgrant := hg r (List.mem_flatMap.mpr ⟨a, ha, hr⟩)
    exact (NameTable.grants_declared_iff.mp hgrant).2.1 b hb
  rw [List.pairwise_flatMap] at hp ⊢
  refine ⟨fun a _ => pairwise_distinct_expand n a, hp.2.imp_of_mem ?_⟩
  rintro a b ha hb happ x hx y hy u v rfl rfl ho
  rcases MappedMember.method_mem_expand hx with ⟨hu, hus⟩ | ⟨hu, r, hr, hur⟩ <;>
    rcases MappedMember.method_mem_expand hy with ⟨hv, hvs⟩ | ⟨hv, s, hs, hvs⟩
  · exact absurd ho (by simp [hu, hv])
  · rw [← hvs]
    intro he
    exact hdeclared b hb a ha s hs (by rw [hus, he])
  · rw [← hur]
    intro he
    exact hdeclared a ha b hb r hr (by rw [hvs, he])
  · rw [← hur, ← hvs]
    exact (happ r hr s hs).accessors

theorem rel_of_pairwise {α : Type} {R : α → α → Prop} {l : List α} (hl : l.Pairwise R)
    (hsymm : ∀ {x y}, R x y → R y x) {i j : Nat} {x y : α} (hi : l[i]? = some x)
    (hj : l[j]? = some y) (hij : i ≠ j) : R x y := by
  obtain ⟨hi', rfl⟩ := List.getElem?_eq_some_iff.mp hi
  obtain ⟨hj', rfl⟩ := List.getElem?_eq_some_iff.mp hj
  rcases Nat.lt_or_gt_of_ne hij with h | h
  · exact List.pairwise_iff_getElem.mp hl i j hi' hj' h
  · exact hsymm (List.pairwise_iff_getElem.mp hl j i hj' hi' h)

/-- **An accessor is unique as a method**: no other method of the class has its name and its
parameter types. -/
theorem accessor_signature_unique (hf : (Mapped.flattened m n).result = .ok f) {i j : Nat}
    {x y : FlatMethod} {property : String} (hx : f.members[i]? = some (.method x))
    (hg : x.origin = .generated property) (hy : f.members[j]? = some (.method y)) (hij : i ≠ j) :
    ¬ (x.name = y.name ∧ x.params.map (·.type) = y.params.map (·.type)) := by
  rintro ⟨hname, htypes⟩
  have hd := rel_of_pairwise (pairwise_distinct_members hf) FlatMember.Distinct.symm hx hy hij
  refine hd x y rfl rfl (.inl (by rw [hg]; exact nofun)) ?_
  unfold Signature.of
  rw [hname, htypes]

/-- A public member without modifiers. -/
def plainMember (name : String) (kind : MappedKind) : MappedMember :=
  ⟨name, .pub, false, false, none, kind⟩

/-- A public class with the given members and no parents. -/
def plainClass (members : List MappedMember) : Mapped :=
  ⟨"Point", .pub, none, none, [], [], [], members⟩

/-- A method that gets the name of a getter, with a parameter that the getter does not have. -/
def getXOverload : MappedMember := plainMember "GetX" (.method { params := [⟨"scale", "int"⟩] })

/-- A number that all may read and heirs may write. -/
def sharedInt : MappedProperty := ⟨"int", .pub, some .prot, none⟩

/-- A property with both accessors. -/
def propertyX : MappedMember := plainMember "X" (.property sharedInt)

theorem accessor_signature_unique_overload :
    ∃ f x y, (Mapped.flattened (plainClass [getXOverload, propertyX]) Profile.java.naming).result =
        .ok f ∧
      f.members[2]? = some (.method x) ∧ x.origin = .generated "X" ∧
      f.members[0]? = some (.method y) ∧ x.name = y.name ∧
      ¬ (x.name = y.name ∧ x.params.map (·.type) = y.params.map (·.type)) := by
  obtain ⟨f, hf⟩ : ∃ f, (Mapped.flattened (plainClass [getXOverload, propertyX])
      Profile.java.naming).result = .ok f := ⟨_, rfl⟩
  have hmembers : f.members = [getXOverload, propertyX].flatMap (·.expand Profile.java.naming) := by
    rw [(Mapped.flattened_ok_iff.mp hf).2]
    rfl
  obtain ⟨x, hx, hg, hxn⟩ : ∃ x, f.members[2]? = some (.method x) ∧ x.origin = .generated "X" ∧
      x.name = "getX" := ⟨_, by rw [hmembers]; rfl, rfl, by decide⟩
  obtain ⟨y, hy, hyn⟩ : ∃ y, f.members[0]? = some (.method y) ∧ y.name = "getX" :=
    ⟨_, by rw [hmembers]; rfl, by decide⟩
  exact ⟨f, x, y, hf, hx, hg, hy, hxn.trans hyn.symm,
    accessor_signature_unique hf hx hg hy (by decide)⟩

/-! ### Backing fields -/

theorem apart_of_split {l before after : List MappedMember} {r s : Request}
    (hp : (l.flatMap (·.requests n)).Pairwise Request.Apart) (hl : l = before ++ a :: after)
    (hb : b ∈ before ++ after) (hr : r ∈ a.requests n) (hs : s ∈ b.requests n) : r.Apart s := by
  rw [hl, List.pairwise_flatMap] at hp
  obtain ⟨-, hcons, hcross⟩ := List.pairwise_append.mp hp.2
  rcases List.mem_append.mp hb with hb | hb
  · exact (hcross b hb a List.mem_cons_self s hs r hr).symm
  · exact (List.pairwise_cons.mp hcons).1 b hb r hr s hs

theorem expand_property {p : MappedProperty} (hk : a.kind = .property p)
    (ha : a.special ≠ some .abstract) :
    a.expand n = .field (a.backingField n p) :: .method (a.getter n p) ::
      (p.setter.map fun w => .method (a.setter n p w)).toList := by
  unfold MappedMember.expand
  rw [hk]
  simp [MappedMember.expandProperty, MappedMember.isAbstract, ha]

theorem requests_property {p : MappedProperty} (hk : a.kind = .property p)
    (ha : a.special ≠ some .abstract) :
    a.requests n = ⟨some (n.backingField a.name), (a.getter n p).signature⟩ ::
      (p.setter.map fun w => ⟨none, (a.setter n p w).signature⟩).toList := by
  unfold MappedMember.requests
  rw [hk]
  simp [MappedMember.isAbstract, ha]

/-- **A backing field shares its name** with no other field of the class, with no method that comes
from another member, declared or generated, and not with its own setter. -/
theorem backingField_name_unshared (hf : (Mapped.flattened m n).result = .ok f)
    {before after : List MappedMember} {p : MappedProperty}
    (hm : m.members = before ++ a :: after) (hk : a.kind = .property p)
    (ha : a.special ≠ some .abstract) :
    f.members = before.flatMap (·.expand n) ++
        (.field (a.backingField n p) :: .method (a.getter n p) ::
          (p.setter.map fun w => .method (a.setter n p w)).toList) ++ after.flatMap (·.expand n) ∧
      (∀ b ∈ before ++ after, ∀ x : FlatField, .field x ∈ b.expand n →
        x.name ≠ (a.backingField n p).name) ∧
      (∀ b ∈ before ++ after, ∀ x : FlatMethod, .method x ∈ b.expand n →
        x.name ≠ (a.backingField n p).name) ∧
      ∀ w, p.setter = some w → (a.setter n p w).name ≠ (a.backingField n p).name := by
  obtain ⟨hg, hp, rfl⟩ := Mapped.flattened_ok_iff_apart.mp hf
  have hreq := requests_property (n := n) hk ha
  have hfirst : ⟨some (n.backingField a.name), (a.getter n p).signature⟩ ∈ a.requests n := by
    rw [hreq]; exact List.mem_cons_self
  have hmem : a ∈ m.members := by rw [hm]; simp
  have hothers : ∀ b ∈ before ++ after, b ∈ m.members := by
    intro b hb
    rw [hm]
    rcases List.mem_append.mp hb with hb | hb <;> simp [hb]
  -- The name is free in the table of declared names.
  have hfree : ∀ b ∈ m.members, ∀ o, b.declares? n ≠ some (n.backingField a.name, o) :=
    (NameTable.grants_declared_iff.mp (hg _ (List.mem_flatMap.mpr ⟨a, hmem, hfirst⟩))).1 _ rfl
  refine ⟨?_, fun b hb x hx he => ?_, fun b hb x hx he => ?_, fun w hw => ?_⟩
  · simp only [hm, List.flatMap_append, List.flatMap_cons, expand_property hk ha,
      List.append_assoc]
  · rcases MappedMember.field_mem_expand hx with ⟨-, hd⟩ | ⟨-, r, hr, hrf⟩
    · exact hfree b (hothers b hb) .field (by rw [hd, he]; rfl)
    · exact (apart_of_split hp hm hb hfirst hr).fields _ rfl (by rw [hrf, he]; rfl)
  · rcases MappedMember.method_mem_expand hx with ⟨-, hd⟩ | ⟨-, r, hr, hra⟩
    · have hd' := MappedMember.declares?_of_signature? hd
      exact hfree b (hothers b hb) .method (by rw [hd', he]; rfl)
    · refine (apart_of_split hp hm hb hfirst hr).accessor_ne_field _ rfl ?_
      rw [hra]
      exact he
  · have hown := (List.pairwise_flatMap.mp hp).1 a hmem
    rw [hreq, hw] at hown
    exact (List.pairwise_pair.mp hown).accessor_ne_field _ rfl

/-- A property whose backing field starts as that of `propertyX` does, and a field beside it. -/
def neighboursOfX : List MappedMember :=
  [plainMember "XBacking" (.property sharedInt), plainMember "x" (.field { type := "int" })]

theorem backingField_name_unshared_point :
    ∃ f, (Mapped.flattened (plainClass ([getXOverload] ++ propertyX :: neighboursOfX))
        Profile.java.naming).result = .ok f ∧
      propertyX.kind = .property sharedInt ∧ propertyX.special ≠ some .abstract ∧
      f.members = [getXOverload].flatMap (·.expand Profile.java.naming) ++
          [.field (propertyX.backingField Profile.java.naming sharedInt),
            .method (propertyX.getter Profile.java.naming sharedInt),
            .method (propertyX.setter Profile.java.naming sharedInt .prot)] ++
          neighboursOfX.flatMap (·.expand Profile.java.naming) ∧
      (∀ b ∈ [getXOverload] ++ neighboursOfX, ∀ x : FlatField,
        .field x ∈ b.expand Profile.java.naming →
          x.name ≠ (propertyX.backingField Profile.java.naming sharedInt).name) ∧
      (∀ b ∈ [getXOverload] ++ neighboursOfX, ∀ x : FlatMethod,
        .method x ∈ b.expand Profile.java.naming →
          x.name ≠ (propertyX.backingField Profile.java.naming sharedInt).name) ∧
      (propertyX.setter Profile.java.naming sharedInt .prot).name ≠
        (propertyX.backingField Profile.java.naming sharedInt).name := by
  obtain ⟨f, hf⟩ : ∃ f, (Mapped.flattened (plainClass ([getXOverload] ++ propertyX ::
      neighboursOfX)) Profile.java.naming).result = .ok f := ⟨_, rfl⟩
  have hspecial : propertyX.special ≠ some .abstract := by decide
  obtain ⟨hmembers, hfields, hmethods, hsetter⟩ :=
    backingField_name_unshared hf rfl (p := sharedInt) rfl hspecial
  exact ⟨f, hf, rfl, hspecial, hmembers, hfields, hmethods, hsetter .prot rfl⟩

end ClassIdiom
