import Mathlib.Data.List.Nodup
import ClassIdiom.Proofs.Records

/-! # Edited records

What becomes of a record when the object that it is read from is edited. The order of the entries
does not matter (`readEntries_of_perm`), an entry with the default value of its field can be left
out (`readEntries_dropped`), and an entry that is no field is refused wherever it stands
(`readEntries_intruded`). Where the value of an entry is edited, the record turns out as the value
does (`readEntries_turned`).

An edit either changes nothing in what is read or makes the reading fail. `Turned` says both at
once, and it goes from the parts of a reading to the whole, as readings are put together. -/

namespace ClassIdiom

variable {α β : Type}

/-! ### Outcomes after an edit -/

/-- What is read after an edit: what was read before, or an error. -/
def ReadError.after : Option ReadError → α → Except ReadError α
  | none, a => .ok a
  | some e, _ => .error e

/-- **A reading turns out** as it did before, or fails with an error. -/
def Turned (o : Option ReadError) (x x' : Except ReadError α) : Prop :=
  ∀ a, x = .ok a → x' = ReadError.after o a

namespace Turned

variable {o : Option ReadError} {x x' : Except ReadError α}

theorem bind_left {f : α → Except ReadError β} (h : Turned o x x') :
    Turned o (x >>= f) (x' >>= f) := by
  intro b hb
  obtain ⟨a, ha, hb⟩ := Logged.except_bind_ok_iff.mp hb
  rw [h a ha]
  cases o with
  | none => exact hb
  | some e => rfl

theorem bind_right {f f' : α → Except ReadError β} (h : ∀ a, x = .ok a → Turned o (f a) (f' a)) :
    Turned o (x >>= f) (x >>= f') := by
  intro b hb
  obtain ⟨a, ha, hb⟩ := Logged.except_bind_ok_iff.mp hb
  rw [ha]
  exact h a ha b hb

theorem map {f : α → β} (h : Turned o x x') : Turned o (x.map f) (x'.map f) := by
  cases x with
  | error e => exact fun b hb => nomatch hb
  | ok a =>
    intro b hb
    obtain rfl : f a = b := Except.ok.inj hb
    rw [h a rfl]
    cases o <;> rfl

end Turned

/-! ### Values -/

namespace Reader

/-- **An edit of a value turns its reading.** -/
def Turns (read : Reader α) (o : Option ReadError) (v v' : Json) : Prop :=
  Turned o (read v) (read v')

variable {read : Reader α} {o : Option ReadError}

/-- An item of an array is edited. -/
theorem Turns.list {v v' : Json} (h : read.Turns o v v') (front back : List Json) :
    (list read).Turns o (.arr (front ++ v :: back)) (.arr (front ++ v' :: back)) := by
  show Turned o ((front ++ v :: back).mapM read) ((front ++ v' :: back).mapM read)
  simp only [List.mapM_append, List.mapM_cons]
  exact .bind_right fun _ _ => .bind_left (.bind_left h)

/-- An object that may be null is edited. -/
theorem Turns.nullable {entries entries' : List (String × Json)}
    (h : read.Turns o (.obj entries) (.obj entries')) :
    (nullable read).Turns o (.obj entries) (.obj entries') :=
  Turned.map h

end Reader

/-! ### Fields -/

namespace Shape

variable {s : Shape α} {o : Option ReadError} {key k : String} {x x' : Option Json} {v v' : Json}

/-- What is built has a property, whatever the values are. -/
def Builds (s : Shape α) (P : α → Prop) : Prop := ∀ values a, s.build values = .ok a → P a

theorem builds_map {f : α → β} {P : β → Prop} (h : ∀ a, P (f a)) : (f <$> s).Builds P := by
  intro values b hb
  have hmap : (s.build values).map f = .ok b := hb
  cases hbuild : s.build values with
  | error e =>
    rw [hbuild] at hmap
    exact nomatch hmap
  | ok a =>
    rw [hbuild] at hmap
    exact Except.ok.inj hmap ▸ h a

theorem Builds.seq {f : Shape (α → β)} {P : β → Prop} (h : f.Builds fun g => ∀ a, P (g a)) :
    (f <*> s).Builds P := by
  intro values b hb
  obtain ⟨g, hg, hb⟩ := Logged.except_bind_ok_iff.mp hb
  obtain ⟨a, -, hb⟩ := Logged.except_bind_ok_iff.mp hb
  exact Except.ok.inj hb ▸ h values g hg a

/-- **A record does not mind** that the value under a key is another one, or none. -/
def Allows (s : Shape α) (key : String) (x x' : Option Json) : Prop :=
  ∀ values values' : String → Option Json, values key = x → values' key = x' →
    (∀ k, k ≠ key → values' k = values k) → ∀ a, s.build values = .ok a → s.build values' = .ok a

/-- A shape with one field. -/
theorem allows_of_build {value : Option Json → Except ReadError α}
    (hs : ∀ values, s.build values = value (values k))
    (h : k = key → ∀ a, value x = .ok a → value x' = .ok a) : s.Allows key x x' := by
  intro values values' hx hx' hother a ha
  rw [hs] at ha ⊢
  by_cases hk : k = key
  · subst hk
    rw [hx] at ha
    rw [hx']
    exact h rfl a ha
  · rw [hother k hk]
    exact ha

theorem Allows.map {f : α → β} (h : s.Allows key x x') : (f <$> s).Allows key x x' := by
  intro values values' hx hx' hother
  have hturned : Turned none (s.build values) (s.build values') := h values values' hx hx' hother
  exact hturned.map

theorem Allows.seq {f : Shape (α → β)} (hf : f.Allows key x x') (hs : s.Allows key x x') :
    (f <*> s).Allows key x x' := by
  intro values values' hx hx' hother b hb
  obtain ⟨g, hg, hb⟩ := Logged.except_bind_ok_iff.mp hb
  obtain ⟨a, ha, hb⟩ := Logged.except_bind_ok_iff.mp hb
  refine Logged.except_bind_ok_iff.mpr ⟨g, hf values values' hx hx' hother g hg, ?_⟩
  exact Logged.except_bind_ok_iff.mpr ⟨a, hs values values' hx hx' hother a ha, hb⟩

/-- The value of a field, where something may stand for a missing one. -/
def fieldValue (read : Reader α) (missing : Except ReadError α) :
    Option Json → Except ReadError α
  | some v => read v
  | none => missing

theorem build_required (read : Reader α) (values : String → Option Json) :
    (required k read).build values = fieldValue read (.error (.missing k)) (values k) := rfl

theorem build_optional (read : Reader α) (default : α) (values : String → Option Json) :
    (optional k read default).build values = fieldValue read (.ok default) (values k) := rfl

theorem drops_required {read : Reader α} (h : k ≠ key) :
    (required k read).Allows key (some v) none :=
  allows_of_build (build_required read) fun hk => absurd hk h

/-- A field can be left out if its value is the default. -/
theorem drops_optional {read : Reader α} {default : α} (h : k = key → read v = .ok default) :
    (optional k read default).Allows key (some v) none :=
  allows_of_build (build_optional read default) fun hk _ ha => (h hk).symm.trans ha

/-- **An edit of the value under a key turns the record.** -/
structure Turns (s : Shape α) (o : Option ReadError) (key : String) (v v' : Json) : Prop where
  check : key ∈ s.keys → Turned o (s.check key v) (s.check key v')
  build : o = none → s.Allows key (some v) (some v')

theorem turns_required {read : Reader α} (h : k = key → read.Turns o v v') :
    (required k read).Turns o key v v' where
  check hkey := (h (List.mem_singleton.mp hkey).symm).map
  build ho := allows_of_build (build_required read) fun hk a ha => by
    subst ho
    exact h hk a ha

theorem turns_optional {read : Reader α} {default : α} (h : k = key → read.Turns o v v') :
    (optional k read default).Turns o key v v' where
  check hkey := (h (List.mem_singleton.mp hkey).symm).map
  build ho := allows_of_build (build_optional read default) fun hk a ha => by
    subst ho
    exact h hk a ha

theorem Turns.map {f : α → β} (h : s.Turns o key v v') : (f <$> s).Turns o key v v' where
  check := h.check
  build ho := (h.build ho).map

theorem Turns.seq {f : Shape (α → β)} (hf : f.Turns o key v v') (hs : s.Turns o key v v') :
    (f <*> s).Turns o key v v' where
  check hkey := by
    show Turned o (if key ∈ f.keys then f.check key v else s.check key v)
      (if key ∈ f.keys then f.check key v' else s.check key v')
    by_cases hf' : key ∈ f.keys
    · rw [if_pos hf', if_pos hf']
      exact hf.check hf'
    · rw [if_neg hf', if_neg hf']
      exact hs.check ((List.mem_append.mp hkey).resolve_left hf')
  build ho := (hf.build ho).seq (hs.build ho)

/-! ### Entries -/

variable {a : α} {front back entries entries' : List (String × Json)}

theorem lookup_perm (hnodup : (entries.map Prod.fst).Nodup) (h : entries.Perm entries')
    (key : String) : entries'.lookup key = entries.lookup key := by
  have hnodup' : (entries'.map Prod.fst).Nodup := (h.map Prod.fst).nodup_iff.mp hnodup
  cases hv : entries.lookup key with
  | none =>
    rw [List.lookup_eq_none_iff] at hv ⊢
    exact fun e he => hv e (h.mem_iff.mpr he)
  | some v =>
    obtain ⟨front, back, rfl, -⟩ := List.lookup_eq_some_iff.mp hv
    have hmem : (key, v) ∈ entries' := h.mem_iff.mp (by simp)
    exact lookup_of_mem hnodup' hmem

/-- **The order of the entries does not matter.** -/
theorem readEntries_of_perm (h : entries.Perm entries') (hread : s.readEntries entries = .ok a) :
    s.readEntries entries' = .ok a := by
  obtain ⟨hnodup, hentries, hbuild⟩ := readEntries_ok_iff.mp hread
  have hlookup : (fun key => entries'.lookup key) = fun key => entries.lookup key :=
    funext (lookup_perm hnodup h)
  refine readEntries_ok_iff.mpr ⟨(h.map Prod.fst).nodup_iff.mp hnodup, fun e he => ?_, ?_⟩
  · exact hentries e (h.mem_iff.mpr he)
  · rw [hlookup]
    exact hbuild

theorem not_mem_of_nodup_middle (hnodup : ((front ++ (key, v) :: back).map Prod.fst).Nodup) :
    key ∉ (front ++ back).map Prod.fst := by
  rw [List.map_append, List.map_cons, List.nodup_middle, List.nodup_cons] at hnodup
  rw [List.map_append]
  exact hnodup.1

theorem lookup_middle (hnodup : ((front ++ (key, v) :: back).map Prod.fst).Nodup) :
    (front ++ (key, v) :: back).lookup key = some v ∧ (front ++ back).lookup key = none := by
  refine ⟨lookup_of_mem hnodup (List.mem_append_right front List.mem_cons_self), ?_⟩
  refine List.lookup_eq_none_iff.mpr fun e he => ?_
  have hkey : key ≠ e.1 := fun hke =>
    not_mem_of_nodup_middle hnodup (hke ▸ List.mem_map_of_mem he)
  simpa using hkey

theorem lookup_middle_of_ne (hk : k ≠ key) :
    (front ++ (key, v) :: back).lookup k = (front ++ back).lookup k := by
  rw [List.lookup_append, List.lookup_append, List.lookup_cons, beq_eq_false_iff_ne.mpr hk]

/-- **An entry can be left out** if its field has that value anyway. -/
theorem readEntries_dropped (hs : s.Allows key (some v) none)
    (h : s.readEntries (front ++ (key, v) :: back) = .ok a) :
    s.readEntries (front ++ back) = .ok a := by
  obtain ⟨hnodup, hentries, hbuild⟩ := readEntries_ok_iff.mp h
  have hsub : (front ++ back).Sublist (front ++ (key, v) :: back) :=
    (List.sublist_cons_self _ _).append_left front
  obtain ⟨hvalue, hnone⟩ := lookup_middle hnodup
  refine readEntries_ok_iff.mpr ⟨hnodup.sublist (hsub.map _), fun e he => ?_, ?_⟩
  · exact hentries e (hsub.subset he)
  · refine hs _ _ hvalue hnone (fun k hk => ?_) a hbuild
    exact (lookup_middle_of_ne hk).symm

/-! ### Entries in front of a failure -/

theorem checkEntries_append {seen : List String} {rest : List (String × Json)} {u : Unit}
    (h : s.checkEntries seen front = .ok u) :
    s.checkEntries seen (front ++ rest) =
      s.checkEntries ((front.map Prod.fst).reverse ++ seen) rest := by
  induction front generalizing seen with
  | nil => rfl
  | cons e front ih =>
    obtain ⟨k, w⟩ := e
    rw [checkEntries] at h
    split_ifs at h with hkey hseen
    obtain ⟨_, hcheck, h⟩ := Logged.except_bind_ok_iff.mp h
    rw [List.cons_append, checkEntries, if_neg (not_not_intro hkey), if_neg hseen,
      hcheck]
    show s.checkEntries (k :: seen) (front ++ rest) = _
    rw [ih h]
    simp

/-- What comes first in an object that can be read is no reason to fail. -/
theorem readEntries_append_error {rest rest' : List (String × Json)} {e : ReadError}
    (h : s.readEntries (front ++ rest) = .ok a)
    (herror : s.checkEntries (front.map Prod.fst).reverse rest' = .error e) :
    s.readEntries (front ++ rest') = .error e := by
  obtain ⟨hnodup, hentries, -⟩ := readEntries_ok_iff.mp h
  have hfront : s.checkEntries [] front = .ok () := by
    rw [List.map_append] at hnodup
    refine checkEntries_ok_iff.mpr ⟨(List.nodup_append.mp hnodup).1, fun x hx => ?_⟩
    obtain ⟨hkey, hcheck⟩ := hentries x (List.mem_append_left rest hx)
    exact ⟨hkey, List.not_mem_nil, hcheck⟩
  unfold readEntries
  rw [checkEntries_append hfront, List.append_nil, herror]
  rfl

/-- **An entry that is no field is refused**, wherever it stands. -/
theorem readEntries_intruded (hkey : key ∉ s.keys) (h : s.readEntries (front ++ back) = .ok a) :
    s.readEntries (front ++ (key, v) :: back) = .error (.unknown key) := by
  refine readEntries_append_error h ?_
  rw [checkEntries, if_pos hkey]

/-- **A record turns out as the value of an entry does** that is edited. -/
theorem readEntries_turned (hs : key ∈ s.keys → s.Turns o key v v') :
    Turned o (s.readEntries (front ++ (key, v) :: back))
      (s.readEntries (front ++ (key, v') :: back)) := by
  intro a h
  obtain ⟨hnodup, hentries, hbuild⟩ := readEntries_ok_iff.mp h
  obtain ⟨hkey, hcheck⟩ := hentries (key, v) (by simp)
  have hturned := (hs hkey).check hkey () hcheck
  cases o with
  | none =>
    have hkeys : (front ++ (key, v') :: back).map Prod.fst =
        (front ++ (key, v) :: back).map Prod.fst := by simp
    have hnodup' : ((front ++ (key, v') :: back).map Prod.fst).Nodup := hkeys ▸ hnodup
    refine readEntries_ok_iff.mpr ⟨hnodup', fun e he => ?_, ?_⟩
    · rcases List.mem_append.mp he with he | he
      · exact hentries e (List.mem_append_left _ he)
      · rcases List.mem_cons.mp he with rfl | he
        · exact ⟨hkey, hturned⟩
        · exact hentries e (List.mem_append_right _ (List.mem_cons_of_mem _ he))
    · refine (hs hkey).build rfl _ _ (lookup_middle hnodup).1 (lookup_middle hnodup').1 ?_ a hbuild
      intro k hk
      rw [lookup_middle_of_ne hk, lookup_middle_of_ne hk]
  | some e =>
    -- The fields in front are read as before, and the edited one fails.
    refine readEntries_append_error h ?_
    have hnew : key ∉ (front.map Prod.fst).reverse := by
      intro hmem
      have hfront := List.mem_append_left (back.map Prod.fst) (List.mem_reverse.mp hmem)
      rw [← List.map_append] at hfront
      exact not_mem_of_nodup_middle hnodup hfront
    rw [checkEntries, if_neg (not_not_intro hkey), if_neg hnew, hturned]
    rfl

end Shape

end ClassIdiom
