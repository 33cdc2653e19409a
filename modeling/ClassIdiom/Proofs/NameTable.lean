import ClassIdiom.Proofs.Stages

/-! # Claiming names

A property asks for names in one or two requests: the first for its backing field, unless it is
abstract, and its getter, the second for its setter. A request is granted if the table of names in
use has no clash with it, and the next one then meets a larger table. `grantsAll_iff`: all requests
are granted, one after the other, exactly if each is granted by the first table and any two of them
are apart. What is apart does not depend on the order, so all that the order of members decides is
what the first table says. `foldlM_claimGenerated_error`: if not all are granted, the failure is that
of the first one which is refused. -/

namespace ClassIdiom

/-- What a property asks for at one go. -/
structure Request where
  /-- The name of a backing field, if there is to be one. -/
  field : Option String
  accessor : Signature
deriving DecidableEq, Repr

/-- What a member asks for, in order. -/
def MappedMember.requests (n : Naming) (m : MappedMember) : List Request :=
  match m.kind with
  | .property p =>
    ⟨if m.isAbstract then none else some (n.backingField m.name), (m.getter n p).signature⟩ ::
      (p.setter.map fun a => ⟨none, (m.setter n p a).signature⟩).toList
  | _ => []

/-- **Two requests do not get in each other's way**: a backing field has a name of its own, and
accessors that share a name have different parameter types. -/
structure Request.Apart (r s : Request) : Prop where
  fields : ∀ f, r.field = some f → s.field ≠ some f
  accessor_ne_field : ∀ f, r.field = some f → s.accessor.name ≠ f
  field_ne_accessor : ∀ f, s.field = some f → r.accessor.name ≠ f
  accessors : r.accessor ≠ s.accessor

theorem Request.Apart.symm {r s : Request} (h : r.Apart s) : s.Apart r where
  fields f hs hr := h.fields f hr hs
  accessor_ne_field := h.field_ne_accessor
  field_ne_accessor := h.accessor_ne_field
  accessors := h.accessors.symm

namespace NameTable

variable {t t' : NameTable} {r s : Request}

/-! ### Names in use -/

theorem occupant?_claim (t : NameTable) (a b : String) (o : Occupant) :
    (t.claim a o).occupant? b = (t.occupant? b).or (if b = a then some o else none) :=
  Table.lookup_append_singleton t.names a b o

theorem occupant?_claimMethod (t : NameTable) (s : Signature) (b : String) :
    (t.claimMethod s).occupant? b =
      (t.occupant? b).or (if b = s.name then some .method else none) :=
  occupant?_claim t s.name b .method

theorem occupant?_claim_eq_none_iff {a b : String} {o : Occupant} :
    (t.claim a o).occupant? b = none ↔ t.occupant? b = none ∧ b ≠ a := by
  rw [occupant?_claim, Option.or_eq_none_iff]
  simp

/-- Every method has its name in the table. -/
def Coherent (t : NameTable) : Prop := ∀ s ∈ t.methods, t.occupant? s.name ≠ none

theorem coherent_claim (h : t.Coherent) (a : String) (o : Occupant) : (t.claim a o).Coherent :=
  fun s hs hnone => h s hs (occupant?_claim_eq_none_iff.mp hnone).1

theorem coherent_claimMethod (h : t.Coherent) (s : Signature) : (t.claimMethod s).Coherent := by
  intro s' hs' hnone
  obtain ⟨hfree, hne⟩ := occupant?_claim_eq_none_iff.mp hnone
  rcases List.mem_append.mp hs' with hs' | hs'
  · exact h s' hs' hfree
  · exact hne (by rw [List.mem_singleton.mp hs'])

/-- An accessor clashes with nothing if its signature is new and its name free or that of methods
only. -/
theorem accessorClash?_eq_none_iff (h : t.Coherent) {s : Signature} :
    t.accessorClash? s = none ↔
      s ∉ t.methods ∧ ∀ o, t.occupant? s.name = some o → o = .method := by
  unfold accessorClash?
  -- Where the name is free, the signature is not looked up: it is new because the table is coherent.
  have hs : s ∈ t.methods → t.occupant? s.name ≠ none := h s
  cases ho : t.occupant? s.name with
  | none => simpa using fun hm => hs hm ho
  | some o => cases o <;> simp

/-! ### One request -/

/-- The request clashes with nothing. -/
def Grants (t : NameTable) (r : Request) : Prop :=
  (∀ f, r.field = some f → t.occupant? f = none) ∧ t.accessorClash? r.accessor = none

/-- The table once a request is granted. -/
def grant (t : NameTable) (r : Request) : NameTable :=
  match r.field with
  | some f => (t.claim f .generated).claimMethod r.accessor
  | none => t.claimMethod r.accessor

theorem methods_grant (t : NameTable) (r : Request) :
    (t.grant r).methods = t.methods ++ [r.accessor] := by
  unfold grant
  split <;> rfl

theorem occupant?_grant (t : NameTable) (r : Request) (b : String) :
    (t.grant r).occupant? b =
      ((t.occupant? b).or (if r.field = some b then some .generated else none)).or
        (if b = r.accessor.name then some .method else none) := by
  unfold grant
  cases r.field with
  | none => simp [occupant?_claimMethod]
  | some f => simp [occupant?_claimMethod, occupant?_claim, eq_comm]

theorem coherent_grant (h : t.Coherent) (r : Request) : (t.grant r).Coherent := by
  unfold grant
  split
  · exact coherent_claimMethod (coherent_claim h _ _) _
  · exact coherent_claimMethod h _

theorem occupant?_grant_eq_none_iff {b : String} :
    (t.grant r).occupant? b = none ↔
      t.occupant? b = none ∧ r.field ≠ some b ∧ r.accessor.name ≠ b := by
  rw [occupant?_grant, Option.or_eq_none_iff, Option.or_eq_none_iff]
  simp [and_assoc, eq_comm]

/-- Beyond a request that is granted, the name of an accessor is free or that of methods only if it
was so before and is not that of the new field. -/
theorem occupant?_grant_method_iff (hr : t.Grants r) {b : String} :
    (∀ o, (t.grant r).occupant? b = some o → o = .method) ↔
      (∀ o, t.occupant? b = some o → o = .method) ∧ r.field ≠ some b := by
  rw [occupant?_grant]
  cases ho : t.occupant? b with
  | some o =>
    -- A name in use is not that of the new field, which was granted.
    have hf : r.field ≠ some b := fun hf => by
      have := hr.1 b hf
      rw [ho] at this
      exact nomatch this
    simp [hf]
  | none =>
    by_cases hf : r.field = some b
    · simp [hf]
    · by_cases hb : b = r.accessor.name
      · subst hb; simp [hf]
      · simp [hf, hb]

/-- **After a request is granted**, another one is granted exactly if it was before and the two are
apart. -/
theorem grants_grant_iff (ht : t.Coherent) (hr : t.Grants r) :
    (t.grant r).Grants s ↔ t.Grants s ∧ r.Apart s := by
  unfold Grants
  simp only [accessorClash?_eq_none_iff ht, accessorClash?_eq_none_iff (coherent_grant ht r),
    occupant?_grant_eq_none_iff, occupant?_grant_method_iff hr, methods_grant, List.mem_append,
    List.mem_singleton, not_or]
  constructor
  · rintro ⟨hf, ⟨hm, hne⟩, ho, hfield⟩
    refine ⟨⟨fun f hs => (hf f hs).1, hm, ho⟩, ?_, ?_, ?_, fun h => hne h.symm⟩
    · exact fun f hr' hs => (hf f hs).2.1 hr'
    · exact fun f hr' hs => hfield (by rw [hr', hs])
    · exact fun f hs => (hf f hs).2.2
  · rintro ⟨⟨hf, hm, ho⟩, happ⟩
    refine ⟨fun f hs => ⟨hf f hs, ?_, happ.field_ne_accessor f hs⟩,
      ⟨hm, fun h => happ.accessors h.symm⟩, ho, ?_⟩
    · exact fun hr' => happ.fields f hr' hs
    · exact fun hr' => happ.accessor_ne_field _ hr' rfl

/-! ### One request after the other -/

/-- Each request clashes with nothing at its turn. -/
def GrantsAll : NameTable → List Request → Prop
  | _, [] => True
  | t, r :: rs => t.Grants r ∧ (t.grant r).GrantsAll rs

/-- The table once all requests are granted. -/
def grantAll (t : NameTable) (rs : List Request) : NameTable := rs.foldl grant t

/-- **All requests are granted** exactly if each is granted at the start and any two are apart. -/
theorem grantsAll_iff (ht : t.Coherent) (rs : List Request) :
    t.GrantsAll rs ↔ (∀ r ∈ rs, t.Grants r) ∧ rs.Pairwise Request.Apart := by
  induction rs generalizing t with
  | nil => simp [GrantsAll]
  | cons r rs ih =>
    rw [GrantsAll, ih (coherent_grant ht r), List.pairwise_cons, List.forall_mem_cons]
    constructor
    · rintro ⟨hr, hrs, hp⟩
      have hrs' := fun s hs => (grants_grant_iff ht hr).mp (hrs s hs)
      exact ⟨⟨hr, fun s hs => (hrs' s hs).1⟩, fun s hs => (hrs' s hs).2, hp⟩
    · rintro ⟨⟨hr, hrs⟩, happ, hp⟩
      exact ⟨hr, fun s hs => (grants_grant_iff ht hr).mpr ⟨hrs s hs, happ s hs⟩, hp⟩

theorem grantsAll_append {rs rs' : List Request} :
    t.GrantsAll (rs ++ rs') ↔ t.GrantsAll rs ∧ (t.grantAll rs).GrantsAll rs' := by
  induction rs generalizing t with
  | nil => simp [GrantsAll, grantAll]
  | cons r rs ih =>
    rw [List.cons_append, GrantsAll, GrantsAll, ih, and_assoc]
    rfl

/-! ### The requests of members -/

variable {n : Naming} {typeName : String} {m : MappedMember}

theorem claimGetter_ok_iff {property : String} {field : Option String} {getter : Signature} :
    t.claimGetter typeName property field getter = .ok t' ↔
      t.Grants ⟨field, getter⟩ ∧ t' = t.grant ⟨field, getter⟩ := by
  unfold claimGetter Grants grant
  cases field with
  | none =>
    simp only [Option.bind_none]
    cases t.accessorClash? getter with
    | none => simp [eq_comm]
    | some o => simp
  | some f =>
    simp only [Option.bind_some]
    cases hf : t.occupant? f with
    | some o => simp [hf]
    | none =>
      simp only [Option.map_none]
      cases t.accessorClash? getter with
      | none => simp [eq_comm, hf]
      | some o => simp

theorem claimSetter_ok_iff {property : String} {setter : Signature} :
    t.claimSetter typeName property setter = .ok t' ↔
      t.Grants ⟨none, setter⟩ ∧ t' = t.grant ⟨none, setter⟩ := by
  unfold claimSetter Grants grant
  cases t.accessorClash? setter with
  | none => simp [eq_comm]
  | some o => simp

theorem claimProperty_ok_iff {p : MappedProperty} (hk : m.kind = .property p) :
    t.claimProperty n typeName m p = .ok t' ↔
      t.GrantsAll (m.requests n) ∧ t' = t.grantAll (m.requests n) := by
  unfold claimProperty MappedMember.requests
  rw [hk]
  simp only [Logged.except_bind_ok_iff, claimGetter_ok_iff]
  cases p.setter with
  | none =>
    simp only [Except.ok.injEq, Option.map_none, Option.toList_none, GrantsAll, and_true, grantAll,
      List.foldl_cons, List.foldl_nil]
    constructor
    · rintro ⟨_, ⟨hg, rfl⟩, rfl⟩
      exact ⟨hg, rfl⟩
    · rintro ⟨hg, rfl⟩
      exact ⟨_, ⟨hg, rfl⟩, rfl⟩
  | some a =>
    simp only [claimSetter_ok_iff, Option.map_some, Option.toList_some, GrantsAll, and_true,
      grantAll, List.foldl_cons, List.foldl_nil]
    constructor
    · rintro ⟨_, ⟨hg, rfl⟩, hs, rfl⟩
      exact ⟨⟨hg, hs⟩, rfl⟩
    · rintro ⟨⟨hg, hs⟩, rfl⟩
      exact ⟨_, ⟨hg, rfl⟩, hs, rfl⟩

theorem requests_eq_nil (h : ∀ p, m.kind ≠ .property p) : m.requests n = [] := by
  unfold MappedMember.requests
  split
  · next p hp => exact absurd hp (h p)
  · rfl

theorem claimGenerated_eq_pure (h : ∀ p, m.kind ≠ .property p) :
    claimGenerated n typeName t m = pure t := by
  unfold claimGenerated
  split
  · next p hp => exact absurd hp (h p)
  · rfl

theorem claimGenerated_ok_iff :
    (claimGenerated n typeName t m).result = .ok t' ↔
      t.GrantsAll (m.requests n) ∧ t' = t.grantAll (m.requests n) := by
  by_cases h : ∃ p, m.kind = .property p
  · obtain ⟨p, hk⟩ := h
    unfold claimGenerated
    rw [hk]
    simp only [Logged.bind_ok_iff, Logged.result_ofExcept, claimProperty_ok_iff hk,
      Logged.pure_ok_iff]
    constructor
    · rintro ⟨_, ht, u, -, rfl⟩
      exact ht
    · intro ht
      exact ⟨t', ht, (), rfl, rfl⟩
  · rw [claimGenerated_eq_pure (not_exists.mp h), requests_eq_nil (not_exists.mp h),
      Logged.pure_ok_iff]
    simp [GrantsAll, grantAll, eq_comm]

/-- **A run over members** grants all their requests, in order. -/
theorem foldlM_claimGenerated_ok_iff {l : List MappedMember} :
    (l.foldlM (claimGenerated n typeName) t).result = .ok t' ↔
      t.GrantsAll (l.flatMap (·.requests n)) ∧ t' = t.grantAll (l.flatMap (·.requests n)) := by
  induction l generalizing t with
  | nil => simp [GrantsAll, grantAll, eq_comm]
  | cons m l ih =>
    rw [List.foldlM_cons, Logged.bind_ok_iff, List.flatMap_cons, grantsAll_append]
    have hall : ∀ rs, t.grantAll (m.requests n ++ rs) = (t.grantAll (m.requests n)).grantAll rs :=
      fun rs => List.foldl_append
    simp only [claimGenerated_ok_iff, ih, hall]
    constructor
    · rintro ⟨_, ⟨hm, rfl⟩, hl, rfl⟩
      exact ⟨⟨hm, hl⟩, rfl⟩
    · rintro ⟨⟨hm, hl⟩, rfl⟩
      exact ⟨_, ⟨hm, rfl⟩, hl, rfl⟩

/-! ### The request that is refused -/

/-- **A name of the request is taken** by what is given. -/
def Refuses (t : NameTable) (r : Request) (name : String) (o : Occupant) : Prop :=
  (r.field = some name ∧ t.occupant? name = some o) ∨
    (r.accessor.name = name ∧ t.accessorClash? r.accessor = some o)

variable {e : Failure}

theorem claimGetter_error {property : String} {field : Option String} {getter : Signature}
    (h : t.claimGetter typeName property field getter = .error e) :
    ∃ name o, t.Refuses ⟨field, getter⟩ name o ∧ nameTaken typeName property name o = e := by
  unfold claimGetter at h
  split at h
  · next f o hf =>
    obtain ⟨g, hg, hgo⟩ := Option.bind_eq_some_iff.mp hf
    obtain ⟨o', ho, ho'⟩ := Option.map_eq_some_iff.mp hgo
    obtain ⟨rfl, rfl⟩ := Prod.mk.inj ho'
    exact ⟨g, o', .inl ⟨hg, ho⟩, Except.error.inj h⟩
  · split at h
    · next o ho => exact ⟨getter.name, o, .inr ⟨rfl, ho⟩, Except.error.inj h⟩
    · split at h <;> exact nomatch h

theorem claimSetter_error {property : String} {setter : Signature}
    (h : t.claimSetter typeName property setter = .error e) :
    ∃ name o, t.Refuses ⟨none, setter⟩ name o ∧ nameTaken typeName property name o = e := by
  unfold claimSetter at h
  split at h
  · next o ho => exact ⟨setter.name, o, .inr ⟨rfl, ho⟩, Except.error.inj h⟩
  · exact nomatch h

/-- A member fails at one of its requests, where those before it are granted. -/
theorem claimGenerated_error (h : (claimGenerated n typeName t m).result = .error e) :
    ∃ rs r rs' name o, m.requests n = rs ++ r :: rs' ∧ (t.grantAll rs).Refuses r name o ∧
      nameTaken typeName m.name name o = e := by
  unfold claimGenerated at h
  split at h
  · next p hk =>
    unfold MappedMember.requests
    rw [hk]
    rw [Logged.bind_error_iff, Logged.result_ofExcept, claimProperty,
      Logged.except_bind_error_iff] at h
    rcases h with (h | ⟨t', ht', h⟩) | ⟨t', -, h⟩
    · obtain ⟨name, o, hrefuses, he⟩ := claimGetter_error h
      exact ⟨[], _, _, name, o, rfl, hrefuses, he⟩
    · obtain ⟨-, rfl⟩ := claimGetter_ok_iff.mp ht'
      cases hs : p.setter with
      | none => exact nomatch hs ▸ h
      | some a =>
        rw [hs] at h
        obtain ⟨name, o, hrefuses, he⟩ := claimSetter_error h
        exact ⟨[_], ⟨none, (m.setter n p a).signature⟩, [], name, o, by simp [hs], hrefuses, he⟩
    · exact nomatch h
  · exact nomatch h

/-- **A run over members** fails at the request that is refused once all before it are granted. -/
theorem foldlM_claimGenerated_error {l : List MappedMember}
    (h : (l.foldlM (claimGenerated n typeName) t).result = .error e) :
    ∃ (front : List MappedMember) (a : MappedMember) (back : List MappedMember) (rs : List Request)
      (r : Request) (rs' : List Request) (name : String) (o : Occupant),
      l = front ++ a :: back ∧ a.requests n = rs ++ r :: rs' ∧
      (t.grantAll (front.flatMap (·.requests n) ++ rs)).Refuses r name o ∧
      nameTaken typeName a.name name o = e := by
  obtain ⟨front, a, back, t', hl, hfront, ha⟩ := Logged.exists_split_of_foldlM_error h
  obtain ⟨-, rfl⟩ := foldlM_claimGenerated_ok_iff.mp hfront
  obtain ⟨rs, r, rs', name, o, hrequests, hrefuses, he⟩ := claimGenerated_error ha
  refine ⟨front, a, back, rs, r, rs', name, o, hl, hrequests, ?_, he⟩
  rw [grantAll, List.foldl_append]
  exact hrefuses

end NameTable

/-! ### The names that are declared -/

namespace MappedMember

/-- The name that a declared member has in the target, and what it stands for. -/
def declares? (n : Naming) (m : MappedMember) : Option (String × Occupant) :=
  match m.kind with
  | .field _ => some (m.name, .field)
  | .property _ => some (m.name, .property)
  | .method _ => some (n.method m.name, .method)
  | .constructor _ => none

/-- The signature that a declared method has in the target. -/
def signature? (n : Naming) (m : MappedMember) : Option Signature :=
  match m.kind with
  | .method x => some (Signature.of (n.method m.name) x.params)
  | _ => none

theorem declares?_of_signature? {n : Naming} {m : MappedMember} {s : Signature}
    (h : m.signature? n = some s) : m.declares? n = some (s.name, .method) := by
  unfold signature? at h
  unfold declares?
  split at h
  · next x hk =>
    rw [hk]
    cases h
    rfl
  · exact nomatch h

end MappedMember

namespace NameTable

variable {n : Naming} {l : List MappedMember}

theorem foldl_claimDeclared (l : List MappedMember) (t : NameTable) :
    (l.foldl (claimDeclared n) t).names = t.names ++ l.filterMap (·.declares? n) ∧
      (l.foldl (claimDeclared n) t).methods = t.methods ++ l.filterMap (·.signature? n) := by
  induction l generalizing t with
  | nil => simp
  | cons m l ih =>
    obtain ⟨h1, h2⟩ := ih (claimDeclared n t m)
    rw [List.foldl_cons, h1, h2]
    unfold claimDeclared MappedMember.declares? MappedMember.signature?
    cases hk : m.kind <;> simp [hk, claim, claimMethod, Signature.of]

theorem names_declared (n : Naming) (l : List MappedMember) :
    (declared n l).names = l.filterMap (·.declares? n) :=
  (foldl_claimDeclared l {}).1

theorem methods_declared (n : Naming) (l : List MappedMember) :
    (declared n l).methods = l.filterMap (·.signature? n) :=
  (foldl_claimDeclared l {}).2

theorem occupant?_declared_eq_none_iff {b : String} :
    (declared n l).occupant? b = none ↔ ∀ m ∈ l, ∀ o, m.declares? n ≠ some (b, o) := by
  unfold occupant?
  rw [names_declared, Table.lookup_eq_none_iff]
  constructor
  · intro h m hm o he
    exact h (List.mem_map.mpr ⟨(b, o), List.mem_filterMap.mpr ⟨m, hm, he⟩, rfl⟩)
  · intro h hb
    obtain ⟨⟨_, o⟩, he, rfl⟩ := List.mem_map.mp hb
    obtain ⟨m, hm, he⟩ := List.mem_filterMap.mp he
    exact h m hm o he

theorem exists_of_occupant?_declared {b : String} {o : Occupant}
    (h : (declared n l).occupant? b = some o) : ∃ m ∈ l, m.declares? n = some (b, o) := by
  unfold occupant? at h
  rw [names_declared] at h
  obtain ⟨l₁, l₂, he, -⟩ := List.lookup_eq_some_iff.mp h
  have hmem : (b, o) ∈ l.filterMap (·.declares? n) := by rw [he]; simp
  exact List.mem_filterMap.mp hmem

/-- A name that is declared stands for one of the members that declare it. -/
theorem occupant?_declared_of_mem {m : MappedMember} {b : String} {o : Occupant} (hm : m ∈ l)
    (h : m.declares? n = some (b, o)) :
    ∃ m' ∈ l, ∃ o', m'.declares? n = some (b, o') ∧ (declared n l).occupant? b = some o' := by
  cases ho : (declared n l).occupant? b with
  | none => exact absurd h (occupant?_declared_eq_none_iff.mp ho m hm o)
  | some o' =>
    obtain ⟨m', hm', h'⟩ := exists_of_occupant?_declared ho
    exact ⟨m', hm', o', h', rfl⟩

theorem coherent_declared (n : Naming) (l : List MappedMember) : (declared n l).Coherent := by
  intro s hs hnone
  rw [methods_declared, List.mem_filterMap] at hs
  obtain ⟨m, hm, hs⟩ := hs
  exact occupant?_declared_eq_none_iff.mp hnone m hm _ (MappedMember.declares?_of_signature? hs)

/-- **What the declared names grant**: a backing field with a name that no member has, and an
accessor with a signature that no method has, if the first member of its name is a method. -/
theorem grants_declared_iff {r : Request} :
    (declared n l).Grants r ↔
      (∀ f, r.field = some f → ∀ m ∈ l, ∀ o, m.declares? n ≠ some (f, o)) ∧
      (∀ m ∈ l, m.signature? n ≠ some r.accessor) ∧
      ∀ o, (declared n l).occupant? r.accessor.name = some o → o = .method := by
  unfold Grants
  simp only [accessorClash?_eq_none_iff (coherent_declared n l), occupant?_declared_eq_none_iff,
    methods_declared, List.mem_filterMap, not_exists, not_and]

end NameTable

/-- **The second stage succeeds** exactly if each request is granted by the declared names and any
two requests are apart. -/
theorem Mapped.flattened_ok_iff_apart {m : Mapped} {n : Naming} {f : Flat} :
    (Mapped.flattened m n).result = .ok f ↔
      (∀ r ∈ m.members.flatMap (·.requests n), (NameTable.declared n m.members).Grants r) ∧
      (m.members.flatMap (·.requests n)).Pairwise Request.Apart ∧
      f = { m with members := m.members.flatMap (·.expand n) } := by
  rw [flattened_ok_iff, ← and_assoc, ← NameTable.grantsAll_iff (NameTable.coherent_declared n _)]
  simp only [NameTable.foldlM_claimGenerated_ok_iff, exists_and_left, exists_eq, and_true]

end ClassIdiom
