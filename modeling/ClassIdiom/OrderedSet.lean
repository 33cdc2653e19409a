/-! # Ordered sets

A list without repetition. Inserting an element that is present changes nothing, so each element
keeps the place of its first insertion. -/

namespace ClassIdiom

/-- A list whose elements are pairwise distinct. -/
structure OrderedSet (α : Type) where
  toList : List α
  distinct : toList.Nodup
deriving DecidableEq, Repr

namespace OrderedSet

variable {α : Type}

/-- The set with no element. -/
def empty : OrderedSet α where
  toList := []
  distinct := by simp

instance : EmptyCollection (OrderedSet α) := ⟨empty⟩

instance : Inhabited (OrderedSet α) := ⟨empty⟩

instance : Membership α (OrderedSet α) := ⟨fun s a => a ∈ s.toList⟩

theorem mem_def {a : α} {s : OrderedSet α} : a ∈ s ↔ a ∈ s.toList := Iff.rfl

variable [DecidableEq α]

instance (a : α) (s : OrderedSet α) : Decidable (a ∈ s) :=
  inferInstanceAs (Decidable (a ∈ s.toList))

/-- Adds an element at the end unless it is present. -/
def insert (s : OrderedSet α) (a : α) : OrderedSet α :=
  if h : a ∈ s.toList then s
  else
    { toList := s.toList ++ [a]
      distinct := by
        rw [List.nodup_append]
        refine ⟨s.distinct, by simp, fun x hx y hy hxy => ?_⟩
        have hy' : y = a := by simpa using hy
        exact h (by rw [← hy', ← hxy]; exact hx) }

/-- Adds the elements of a list, in order. -/
def insertAll (s : OrderedSet α) (l : List α) : OrderedSet α := l.foldl insert s

/-- The elements of a list, each at its first place. -/
def ofList (l : List α) : OrderedSet α := empty.insertAll l

theorem mem_insert {s : OrderedSet α} {a b : α} : b ∈ s.insert a ↔ b ∈ s ∨ b = a := by
  simp only [mem_def, insert]
  split
  · next h =>
    refine ⟨Or.inl, fun h' => h'.elim id fun e => ?_⟩
    rw [e]; exact h
  · simp

theorem mem_insertAll {s : OrderedSet α} {l : List α} {b : α} :
    b ∈ s.insertAll l ↔ b ∈ s ∨ b ∈ l := by
  induction l generalizing s with
  | nil => simp [insertAll]
  | cons a l ih =>
    have : s.insertAll (a :: l) = (s.insert a).insertAll l := rfl
    rw [this, ih, mem_insert, List.mem_cons, or_assoc]

end OrderedSet

end ClassIdiom
