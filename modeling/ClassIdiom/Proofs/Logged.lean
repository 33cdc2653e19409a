import Mathlib.Data.List.Forall2
import ClassIdiom.Logged

/-! # Success and failure of logged computations

A logged computation succeeds exactly if its parts do, and fails with the failure of a part. There
is one statement for each way to put computations together, first for success and then for failure;
`mapM_ok_iff` is the one for lists, which comes from that for computations without events. -/

namespace ClassIdiom.Logged

variable {ε ε' α β : Type}

/-! ### Success -/

theorem except_bind_ok_iff {x : Except ε α} {f : α → Except ε β} {b : β} :
    x >>= f = .ok b ↔ ∃ a, x = .ok a ∧ f a = .ok b := by
  cases x with
  | error e => simp [bind, Except.bind]
  | ok a => simp [bind, Except.bind]

theorem bind_ok_iff {x : Logged ε α} {f : α → Logged ε β} {b : β} :
    (x >>= f).result = .ok b ↔ ∃ a, x.result = .ok a ∧ (f a).result = .ok b := by
  rw [result_bind, except_bind_ok_iff]

theorem pure_ok_iff {a b : α} : (pure a : Logged ε α).result = .ok b ↔ a = b := by
  rw [result_pure, Except.ok.injEq]

theorem map_ok_iff {f : α → β} {x : Logged ε α} {b : β} :
    (f <$> x).result = .ok b ↔ ∃ a, x.result = .ok a ∧ f a = b := by
  rw [← bind_pure_comp, bind_ok_iff]
  simp only [pure_ok_iff]

theorem require_ok_iff {condition : Bool} {e : ε} {u : Unit} :
    (require condition e).result = .ok u ↔ condition = true := by
  rw [result_require]
  cases condition <;> simp

/-- **A list of computations** succeeds exactly if each one does, with the list of the results. -/
theorem except_mapM_ok_iff {f : α → Except ε β} {l : List α} {bs : List β} :
    l.mapM f = .ok bs ↔ List.Forall₂ (fun a b => f a = .ok b) l bs := by
  induction l generalizing bs with
  | nil => simp [pure, Except.pure, eq_comm]
  | cons a l ih =>
    rw [List.mapM_cons, List.forall₂_cons_left_iff, except_bind_ok_iff]
    constructor
    · rintro ⟨b, hb, h⟩
      obtain ⟨rest, hrest, h⟩ := except_bind_ok_iff.mp h
      exact ⟨b, rest, hb, ih.mp hrest, (Except.ok.inj h).symm⟩
    · rintro ⟨b, rest, hb, hrest, rfl⟩
      exact ⟨b, hb, except_bind_ok_iff.mpr ⟨rest, ih.mpr hrest, rfl⟩⟩

theorem except_map_mapM {γ : Type} (f : α → Except ε β) (g : β → γ) (l : List α) :
    (l.mapM f).map (List.map g) = l.mapM fun a => (f a).map g := by
  induction l with
  | nil => rfl
  | cons a l ih =>
    rw [List.mapM_cons, List.mapM_cons, ← ih]
    cases f a with
    | error e => rfl
    | ok b => cases l.mapM f <;> rfl

theorem result_mapM (f : α → Logged ε β) (l : List α) :
    (l.mapM f).result = l.mapM fun a => (f a).result := by
  induction l with
  | nil => rfl
  | cons a l ih => simp [ih, pure, Except.pure]

theorem mapM_ok_iff {f : α → Logged ε β} {l : List α} {bs : List β} :
    (l.mapM f).result = .ok bs ↔ List.Forall₂ (fun a b => (f a).result = .ok b) l bs := by
  rw [result_mapM, except_mapM_ok_iff]

/-- Each result comes from one of the computations. -/
theorem exists_of_mem_of_forall₂ {R : α → β → Prop} {l : List α} {bs : List β}
    (h : List.Forall₂ R l bs) {b : β} (hb : b ∈ bs) : ∃ a ∈ l, R a b := by
  induction h with
  | nil => exact nomatch hb
  | cons hab _ ih =>
    rcases List.mem_cons.mp hb with rfl | hb
    · exact ⟨_, List.mem_cons_self, hab⟩
    · obtain ⟨a, ha, hab⟩ := ih hb
      exact ⟨a, List.mem_cons_of_mem _ ha, hab⟩

/-- Where one computation stands between others, so does its result. -/
theorem exists_split_of_forall₂ {R : α → β → Prop} {before after : List α} {a : α} {bs : List β}
    (h : List.Forall₂ R (before ++ a :: after) bs) :
    ∃ front b back, bs = front ++ b :: back ∧ R a b := by
  induction before generalizing bs with
  | nil =>
    obtain ⟨b, back, hab, -, rfl⟩ := List.forall₂_cons_left_iff.mp h
    exact ⟨[], b, back, rfl, hab⟩
  | cons x before ih =>
    obtain ⟨y, ys, -, hrest, rfl⟩ := List.forall₂_cons_left_iff.mp h
    obtain ⟨front, b, back, rfl, hab⟩ := ih hrest
    exact ⟨y :: front, b, back, rfl, hab⟩

/-! ### Failure -/

theorem except_bind_error_iff {x : Except ε α} {f : α → Except ε β} {e : ε} :
    x >>= f = .error e ↔ x = .error e ∨ ∃ a, x = .ok a ∧ f a = .error e := by
  cases x with
  | error e' => simp [bind, Except.bind]
  | ok a => simp [bind, Except.bind]

theorem except_mapError_error_iff {x : Except ε α} {f : ε → ε'} {e : ε'} :
    x.mapError f = .error e ↔ ∃ e', x = .error e' ∧ f e' = e := by
  cases x with
  | error e' => simp [Except.mapError]
  | ok a => simp [Except.mapError]

theorem bind_error_iff {x : Logged ε α} {f : α → Logged ε β} {e : ε} :
    (x >>= f).result = .error e ↔
      x.result = .error e ∨ ∃ a, x.result = .ok a ∧ (f a).result = .error e := by
  rw [result_bind, except_bind_error_iff]

theorem map_error_iff {f : α → β} {x : Logged ε α} {e : ε} :
    (f <$> x).result = .error e ↔ x.result = .error e := by
  rw [← bind_pure_comp, bind_error_iff]
  simp

theorem require_error_iff {condition : Bool} {e e' : ε} :
    (require condition e).result = .error e' ↔ condition = false ∧ e = e' := by
  rw [result_require]
  cases condition <;> simp

/-- **A list of computations** fails exactly if one of them does and all before it succeed. -/
theorem except_mapM_error_iff {f : α → Except ε β} {l : List α} {e : ε} :
    l.mapM f = .error e ↔
      ∃ front a back, l = front ++ a :: back ∧ (∀ x ∈ front, ∃ b, f x = .ok b) ∧
        f a = .error e := by
  induction l with
  | nil => simp [pure, Except.pure]
  | cons x l ih =>
    rw [List.mapM_cons, except_bind_error_iff]
    constructor
    · rintro (h | ⟨b, hb, h⟩)
      · exact ⟨[], x, l, rfl, by simp, h⟩
      · rcases except_bind_error_iff.mp h with h | ⟨bs, -, h⟩
        · obtain ⟨front, a, back, rfl, hfront, ha⟩ := ih.mp h
          refine ⟨x :: front, a, back, rfl, ?_, ha⟩
          exact List.forall_mem_cons.mpr ⟨⟨b, hb⟩, hfront⟩
        · exact nomatch h
    · rintro ⟨front, a, back, hl, hfront, ha⟩
      cases front with
      | nil =>
        obtain ⟨rfl, rfl⟩ := List.cons.inj hl
        exact Or.inl ha
      | cons y front =>
        obtain ⟨rfl, rfl⟩ := List.cons.inj hl
        obtain ⟨⟨b, hb⟩, hfront⟩ := List.forall_mem_cons.mp hfront
        exact Or.inr ⟨b, hb, except_bind_error_iff.mpr
          (Or.inl (ih.mpr ⟨front, a, back, rfl, hfront, ha⟩))⟩

/-- **Computations that hand on a value** fail only if one of them does, at the value that those
before it have made. -/
theorem exists_split_of_foldlM_error {f : β → α → Logged ε β} {l : List α} {b : β} {e : ε}
    (h : (l.foldlM f b).result = .error e) :
    ∃ (front : List α) (a : α) (back : List α) (b' : β), l = front ++ a :: back ∧
      (front.foldlM f b).result = .ok b' ∧ (f b' a).result = .error e := by
  induction l generalizing b with
  | nil => exact nomatch h
  | cons x l ih =>
    rw [List.foldlM_cons, bind_error_iff] at h
    rcases h with h | ⟨b₁, hb₁, h⟩
    · exact ⟨[], x, l, b, rfl, rfl, h⟩
    · obtain ⟨front, a, back, b', rfl, hfront, ha⟩ := ih h
      refine ⟨x :: front, a, back, b', rfl, ?_, ha⟩
      rw [List.foldlM_cons, bind_ok_iff]
      exact ⟨b₁, hb₁, hfront⟩

end ClassIdiom.Logged
