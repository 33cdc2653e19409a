import ClassIdiom.Json.Shape
import ClassIdiom.Proofs.Logged

/-! # Records are read back

`readEntries_ok_iff` says when a record is read from the entries of an object: each key is a field
and stands there once, each value can be read, and the values make up the record.

A writer puts down all fields of a record in order. `Shape.Gives s entries a` says that these
entries are right for the record `a`; it is put together field by field, as shapes are, and
`Gives.readEntries` reads the record back. `Reader.Undoes` is the same for single values. -/

namespace ClassIdiom

namespace Shape

variable {α β : Type} {s : Shape α} {entries : List (String × Json)} {a : α}

/-! ### Entries of an object -/

theorem checkEntries_ok_iff {seen : List String} {u : Unit} :
    s.checkEntries seen entries = .ok u ↔
      (entries.map Prod.fst).Nodup ∧
      ∀ e ∈ entries, e.1 ∈ s.keys ∧ e.1 ∉ seen ∧ s.check e.1 e.2 = .ok () := by
  induction entries generalizing seen with
  | nil => simp [checkEntries]
  | cons e entries ih =>
    obtain ⟨key, v⟩ := e
    rw [checkEntries]
    by_cases hkey : key ∈ s.keys
    · by_cases hseen : key ∈ seen
      · simp [hkey, hseen]
      · simp only [hkey, hseen, not_true_eq_false, if_false, Logged.except_bind_ok_iff, ih,
          List.map_cons, List.nodup_cons, List.mem_cons, not_or]
        constructor
        · rintro ⟨_, hcheck, hnodup, hentries⟩
          refine ⟨⟨fun hmem => ?_, hnodup⟩, ?_⟩
          · obtain ⟨e, he, hek⟩ := List.mem_map.mp hmem
            exact (hentries e he).2.1.1 hek
          · rintro e (rfl | he)
            · exact ⟨hkey, hseen, hcheck⟩
            · obtain ⟨hk, hnew, hc⟩ := hentries e he
              exact ⟨hk, hnew.2, hc⟩
        · rintro ⟨⟨hnew, hnodup⟩, hentries⟩
          refine ⟨(), (hentries _ (Or.inl rfl)).2.2, hnodup, fun e he => ?_⟩
          obtain ⟨hk, hold, hc⟩ := hentries e (Or.inr he)
          refine ⟨hk, ⟨fun hek => hnew ?_, hold⟩, hc⟩
          exact List.mem_map.mpr ⟨e, he, hek⟩
    · simp [hkey]

/-- **A record is read from an object** exactly if its keys are fields that stand there once, each
value can be read, and the values make up the record. -/
theorem readEntries_ok_iff :
    s.readEntries entries = .ok a ↔
      (entries.map Prod.fst).Nodup ∧ (∀ e ∈ entries, e.1 ∈ s.keys ∧ s.check e.1 e.2 = .ok ()) ∧
      s.build (fun key => entries.lookup key) = .ok a := by
  unfold readEntries
  rw [Logged.except_bind_ok_iff]
  simp only [checkEntries_ok_iff, List.not_mem_nil, not_false_eq_true, true_and, and_assoc,
    exists_const]

theorem lookup_of_mem (hnodup : (entries.map Prod.fst).Nodup) {e : String × Json}
    (he : e ∈ entries) : entries.lookup e.1 = some e.2 := by
  obtain ⟨front, back, rfl⟩ := List.append_of_mem he
  refine List.lookup_eq_some_iff.mpr ⟨front, back, rfl, fun d hd => ?_⟩
  rw [List.map_append, List.nodup_append] at hnodup
  have hne := hnodup.2.2 d.1 (List.mem_map_of_mem hd) e.1 (by simp)
  simpa [bne_iff_ne] using hne.symm

/-! ### Entries of all fields -/

/-- **The entries are those of a record**: all fields in order, with values that make it up. -/
structure Gives (s : Shape α) (entries : List (String × Json)) (a : α) : Prop where
  keys : entries.map Prod.fst = s.keys
  check : s.keys.Nodup → ∀ e ∈ entries, s.check e.1 e.2 = .ok ()
  build : ∀ values, (∀ e ∈ entries, values e.1 = some e.2) → s.build values = .ok a

theorem gives_required (key : String) {read : Reader α} {v : Json} (h : read v = .ok a) :
    (required key read).Gives [(key, v)] a where
  keys := rfl
  check _ := by simp [required, h, Except.map]
  build values hvalues := by
    have hv : values key = some v := hvalues (key, v) List.mem_cons_self
    simp only [required, hv, h]

theorem gives_optional (key : String) (default : α) {read : Reader α} {v : Json}
    (h : read v = .ok a) : (optional key read default).Gives [(key, v)] a where
  keys := rfl
  check _ := by simp [optional, h, Except.map]
  build values hvalues := by
    have hv : values key = some v := hvalues (key, v) List.mem_cons_self
    simp only [optional, hv, h]

theorem Gives.map (f : α → β) (h : s.Gives entries a) : (f <$> s).Gives entries (f a) where
  keys := h.keys
  check := h.check
  build values hvalues := by
    show (s.build values).map f = .ok (f a)
    rw [h.build values hvalues]
    rfl

theorem Gives.seq {f : Shape (α → β)} {front back : List (String × Json)} {g : α → β}
    (hf : f.Gives front g) (hs : s.Gives back a) : (f <*> s).Gives (front ++ back) (g a) where
  keys := by
    rw [List.map_append, hf.keys, hs.keys]
    rfl
  check hnodup e he := by
    have hkeys : (f.keys ++ s.keys).Nodup := hnodup
    obtain ⟨hfront, hback, hdisjoint⟩ := List.nodup_append.mp hkeys
    show (if e.1 ∈ f.keys then f.check e.1 e.2 else s.check e.1 e.2) = .ok ()
    rcases List.mem_append.mp he with he | he
    · have hkey : e.1 ∈ f.keys := hf.keys ▸ List.mem_map_of_mem he
      rw [if_pos hkey]
      exact hf.check hfront e he
    · have hkey : e.1 ∈ s.keys := hs.keys ▸ List.mem_map_of_mem he
      rw [if_neg fun h => hdisjoint _ h _ hkey rfl]
      exact hs.check hback e he
  build values hvalues := by
    have hfront := hf.build values fun e he => hvalues e (List.mem_append_left _ he)
    have hback := hs.build values fun e he => hvalues e (List.mem_append_right _ he)
    show (do
      let g ← f.build values
      let a ← s.build values
      .ok (g a)) = Except.ok (g a)
    rw [hfront, hback]
    rfl

theorem Gives.mem_keys (h : s.Gives entries a) {e : String × Json} (he : e ∈ entries) :
    e.1 ∈ s.keys :=
  h.keys ▸ List.mem_map_of_mem he

/-- **A record is read back** from the entries of all its fields. -/
theorem Gives.readEntries (h : s.Gives entries a) (hnodup : s.keys.Nodup) :
    s.readEntries entries = .ok a := by
  have hdistinct : (entries.map Prod.fst).Nodup := h.keys ▸ hnodup
  refine readEntries_ok_iff.mpr ⟨hdistinct, fun e he => ?_, ?_⟩
  · exact ⟨h.mem_keys he, h.check hnodup e he⟩
  · exact h.build _ fun e he => lookup_of_mem hdistinct he

end Shape

/-! ### Single values -/

/-- Reading undoes writing. -/
def Reader.Undoes {α : Type} (read : Reader α) (write : α → Json) : Prop :=
  ∀ a, read (write a) = .ok a

namespace Reader

variable {α : Type} {read : Reader α} {write : α → Json}

theorem undoes_string : string.Undoes .str := fun _ => rfl

theorem undoes_bool : bool.Undoes .bool := fun _ => rfl

theorem Undoes.nullable (h : read.Undoes write) (hnull : ∀ a, write a ≠ .null) :
    (nullable read).Undoes (.opt write) := by
  intro o
  cases o with
  | none => rfl
  | some a =>
    have hread : Reader.nullable read (write a) = (read (write a)).map some := by
      unfold Reader.nullable
      split
      · next he => exact absurd he (hnull a)
      · rfl
    rw [Json.opt, hread, h a]
    rfl

theorem Undoes.list (h : read.Undoes write) : (list read).Undoes fun l => .arr (l.map write) := by
  intro l
  show (l.map write).mapM read = .ok l
  induction l with
  | nil => rfl
  | cons a l ih =>
    rw [List.map_cons, List.mapM_cons, h a, ih]
    rfl

theorem undoes_word {ofWord? : String → Option α} {spell : α → String}
    (h : ∀ a, ofWord? (spell a) = some a) : (word ofWord?).Undoes fun a => .str (spell a) := by
  intro a
  simp only [word, known, h a]

theorem undoes_lateWord {ofWord? : String → Option α} {spell : α → String}
    (h : ∀ a, ofWord? (spell a) = some a) : (lateWord ofWord?).Undoes fun a => .str (spell a) := by
  intro a
  simp only [lateWord, known, h a]

end Reader

end ClassIdiom
