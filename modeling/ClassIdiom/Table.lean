/-! # Tables

A table is a finite map that remembers the order in which its keys first came. Inserting under a
key that is present replaces the value in place. Main statements: `get?_insert` and `get?_erase`
say what a later look-up finds, `size_erase_lt` that erasing a present key makes the table smaller.
-/

namespace ClassIdiom

/-- A finite map with its entries in order, one entry a key. -/
structure Table (κ α : Type) where
  entries : List (κ × α)
  distinct : (entries.map Prod.fst).Nodup
deriving DecidableEq, Repr

namespace Table

variable {κ α : Type} [DecidableEq κ]

/-- The table with no entry. -/
def empty : Table κ α where
  entries := []
  distinct := by simp

instance : EmptyCollection (Table κ α) := ⟨empty⟩

instance : Inhabited (Table κ α) := ⟨empty⟩

/-- The keys, in order. -/
def keys (t : Table κ α) : List κ := t.entries.map Prod.fst

/-- The number of entries. -/
def size (t : Table κ α) : Nat := t.entries.length

/-- The value under a key. -/
def get? (t : Table κ α) (k : κ) : Option α := t.entries.lookup k

/-- The key has a value. -/
def contains (t : Table κ α) (k : κ) : Bool := (t.get? k).isSome

/-- The entries with the value under `k` replaced. -/
def replaced (entries : List (κ × α)) (k : κ) (v : α) : List (κ × α) :=
  entries.map fun e => if e.1 = k then (k, v) else e

theorem keys_replaced (entries : List (κ × α)) (k : κ) (v : α) :
    (replaced entries k v).map Prod.fst = entries.map Prod.fst := by
  induction entries with
  | nil => rfl
  | cons e rest ih =>
    simp only [replaced, List.map_cons, List.cons.injEq] at ih ⊢
    refine ⟨?_, ih⟩
    split
    · next h => exact h.symm
    · rfl

/-- Sets the value under a key: in place if the key is present, at the end otherwise. -/
def insert (t : Table κ α) (k : κ) (v : α) : Table κ α :=
  if h : k ∈ t.entries.map Prod.fst then
    { entries := replaced t.entries k v
      distinct := by rw [keys_replaced]; exact t.distinct }
  else
    { entries := t.entries ++ [(k, v)]
      distinct := by
        rw [List.map_append, List.nodup_append]
        refine ⟨t.distinct, by simp, fun a ha b hb => ?_⟩
        have hb' : b = k := by simpa using hb
        intro hab
        exact h (by rw [← hb', ← hab]; exact ha) }

/-- Drops the entry under a key. -/
def erase (t : Table κ α) (k : κ) : Table κ α where
  entries := t.entries.filter fun e => e.1 ≠ k
  distinct := t.distinct.sublist (List.filter_sublist.map Prod.fst)

/-- Inserts the entries of a list, in order. -/
def insertAll (t : Table κ α) (entries : List (κ × α)) : Table κ α :=
  entries.foldl (fun t e => t.insert e.1 e.2) t

/-- The table of the given entries; of two entries under one key the later value wins. -/
def ofList (entries : List (κ × α)) : Table κ α := empty.insertAll entries

/-! ### Look-ups after a change -/

theorem lookup_replaced (entries : List (κ × α)) (k k' : κ) (v : α) :
    (replaced entries k v).lookup k' =
      if k' = k then (entries.lookup k).map (fun _ => v) else entries.lookup k' := by
  induction entries with
  | nil => simp [replaced]
  | cons e rest ih =>
    obtain ⟨a, b⟩ := e
    simp only [replaced, List.map_cons] at ih ⊢
    by_cases hk : k' = k
    · subst hk
      by_cases ha : a = k'
      · subst ha; simp
      · have ha' : ¬ k' = a := fun h => ha h.symm
        simp [List.lookup_cons, ha, beq_eq_false_iff_ne.mpr ha', ih]
    · by_cases ha : a = k
      · subst ha
        simp [List.lookup_cons, beq_eq_false_iff_ne.mpr hk, ih, hk]
      · by_cases hak : k' = a
        · subst hak; simp [ha]
        · simp [List.lookup_cons, ha, beq_eq_false_iff_ne.mpr hak, ih, hk]

theorem lookup_eq_none_iff (entries : List (κ × α)) (k : κ) :
    entries.lookup k = none ↔ k ∉ entries.map Prod.fst := by
  induction entries with
  | nil => simp
  | cons e rest ih =>
    obtain ⟨a, b⟩ := e
    by_cases ha : k = a
    · subst ha; simp
    · simp only [List.lookup_cons, beq_eq_false_iff_ne.mpr ha, ih, List.map_cons, List.mem_cons, ha,
        false_or]

theorem lookup_append_singleton (entries : List (κ × α)) (k k' : κ) (v : α) :
    (entries ++ [(k, v)]).lookup k' =
      (entries.lookup k').or (if k' = k then some v else none) := by
  induction entries with
  | nil =>
    by_cases h : k' = k
    · subst h; simp
    · simp [List.lookup_cons, beq_eq_false_iff_ne.mpr h, h]
  | cons e rest ih =>
    obtain ⟨a, b⟩ := e
    by_cases ha : k' = a
    · subst ha; simp
    · simp only [List.cons_append, List.lookup_cons, beq_eq_false_iff_ne.mpr ha, ih]

@[simp]
theorem get?_empty (k : κ) : (empty : Table κ α).get? k = none := rfl

/-- **A look-up after an insertion** finds the new value under its key and the old ones elsewhere.
-/
theorem get?_insert (t : Table κ α) (k k' : κ) (v : α) :
    (t.insert k v).get? k' = if k' = k then some v else t.get? k' := by
  unfold insert get?
  split
  · next h =>
    rw [lookup_replaced]
    split
    · next hk =>
      cases hl : t.entries.lookup k with
      | none => exact absurd h ((lookup_eq_none_iff _ _).mp hl)
      | some b => rfl
    · rfl
  · next h =>
    rw [lookup_append_singleton]
    split
    · next hk =>
      subst hk
      rw [(lookup_eq_none_iff _ _).mpr h]; rfl
    · cases t.entries.lookup k' <;> rfl

theorem get?_insertAll_of_nodup {entries : List (κ × α)} (h : (entries.map Prod.fst).Nodup)
    (t : Table κ α) (k : κ) :
    (t.insertAll entries).get? k = (entries.lookup k).or (t.get? k) := by
  induction entries generalizing t with
  | nil => rfl
  | cons e rest ih =>
    obtain ⟨a, b⟩ := e
    rw [List.map_cons, List.nodup_cons] at h
    show ((t.insert a b).insertAll rest).get? k = _
    rw [ih h.2, get?_insert]
    by_cases hk : k = a
    · subst hk
      rw [(lookup_eq_none_iff rest k).mpr h.1]
      simp
    · simp [List.lookup_cons, beq_eq_false_iff_ne.mpr hk, hk]

/-- **A look-up after all entries of a table** finds its values before those that were there. -/
theorem get?_insertAll (t u : Table κ α) (k : κ) :
    (t.insertAll u.entries).get? k = (u.get? k).or (t.get? k) :=
  get?_insertAll_of_nodup u.distinct t k

/-- **A look-up after an erasure** finds nothing under the key and the old values elsewhere. -/
theorem get?_erase (t : Table κ α) (k k' : κ) :
    (t.erase k).get? k' = if k' = k then none else t.get? k' := by
  unfold erase get?
  simp only
  induction t.entries with
  | nil => simp
  | cons e rest ih =>
    obtain ⟨a, b⟩ := e
    by_cases ha : a = k
    · subst ha
      rw [List.filter_cons_of_neg (by simp), ih]
      split
      · rfl
      · next hk => simp [List.lookup_cons, beq_eq_false_iff_ne.mpr hk]
    · rw [List.filter_cons_of_pos (by simpa using ha)]
      by_cases hak : k' = a
      · subst hak; simp [ha]
      · simp only [List.lookup_cons, beq_eq_false_iff_ne.mpr hak, ih]

theorem size_erase_lt {t : Table κ α} {k : κ} {v : α} (h : t.get? k = some v) :
    (t.erase k).size < t.size := by
  have hk : k ∈ t.entries.map Prod.fst := by
    by_cases hm : k ∈ t.entries.map Prod.fst
    · exact hm
    · have := (lookup_eq_none_iff t.entries k).mpr hm
      unfold get? at h
      rw [this] at h
      exact nomatch h
  obtain ⟨e, he, hek⟩ := List.mem_map.mp hk
  unfold size erase
  simp only
  exact List.length_filter_lt_length_iff_exists.mpr ⟨e, he, by simp [hek]⟩

end Table

end ClassIdiom
