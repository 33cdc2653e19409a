import Mathlib.Data.List.TakeWhile
import ClassIdiom.TypeNames

/-! # Spelling types, from the outside in

Types are spelled through their layers, which come from one walk over the characters backwards.
`spell_eq` tells the same from the outside in: drop the blanks around the type; look it up in the
table; else, if it ends with brackets, spell what is before them; else it must be known. -/

namespace ClassIdiom

namespace Text

/-- The text has no other characters than blanks. -/
def AllBlank (s : String) : Prop := ∀ c ∈ s.toList, isBlank c = true

instance (s : String) : Decidable (AllBlank s) := List.decidableBAll _ _

theorem trimEnd_cons (c : Char) (cs : List Char) :
    trimEnd (c :: cs) = if isBlank c && (trimEnd cs).isEmpty then [] else c :: trimEnd cs := by
  unfold trimEnd
  rw [List.reverse_cons, List.dropWhile_append]
  cases hcs : cs.reverse.dropWhile isBlank with
  | nil => cases hc : isBlank c <;> simp [hc]
  | cons x xs => simp

/-- Trimming may start at either end. -/
theorem trimStart_trimEnd (cs : List Char) : trimStart (trimEnd cs) = trimChars cs := by
  unfold trimChars
  induction cs with
  | nil => rfl
  | cons c cs ih =>
    unfold trimStart at ih ⊢
    rw [trimEnd_cons]
    cases hc : isBlank c with
    | true =>
      rw [List.dropWhile_cons_of_pos hc, ← ih]
      cases hcs : trimEnd cs with
      | nil => rfl
      | cons x xs => simp [List.dropWhile_cons, hc]
    | false =>
      rw [List.dropWhile_cons_of_neg (by simp [hc]), trimEnd_cons, hc]
      simp [hc]

/-- What is cut off at the end is blank. -/
theorem exists_trimEnd_append (cs : List Char) :
    ∃ w, cs = trimEnd cs ++ w ∧ ∀ c ∈ w, isBlank c = true := by
  refine ⟨(cs.reverse.takeWhile isBlank).reverse, ?_, fun c hc => ?_⟩
  · unfold trimEnd
    rw [← List.reverse_append, List.takeWhile_append_dropWhile, List.reverse_reverse]
  · exact List.mem_takeWhile_imp (List.mem_reverse.mp hc)

end Text

namespace TypeNames

/-- The element type of an array type that is given without blanks around it. -/
def element? (type : String) : Option String :=
  match type.toList.reverse with
  | ']' :: '[' :: cs => some (String.ofList cs.reverse)
  | _ => none

theorem element?_eq_some_iff {type element : String} :
    element? type = some element ↔ type = element ++ "[]" := by
  unfold element?
  constructor
  · intro h
    split at h
    · next cs hcs =>
      rw [← Option.some.inj h, ← String.toList_inj, String.toList_append, String.toList_ofList,
        ← List.reverse_reverse type.toList, hcs]
      simp
    · exact nomatch h
  · rintro rfl
    simp

/-! ### Layers -/

theorem isBlank_opening : Text.isBlank '[' = false := by decide

theorem isBlank_closing : Text.isBlank ']' = false := by decide

theorem layersBackward_blank {c : Char} (h : Text.isBlank c = true) (cs : List Char) :
    layersBackward (c :: cs) = layersBackward cs := by
  rw [layersBackward]
  · rw [if_pos h]
  · intro cs' hc
    subst hc
    exact nomatch isBlank_closing.symm.trans h

theorem layersBackward_dropWhile (cs : List Char) :
    layersBackward (cs.dropWhile Text.isBlank) = layersBackward cs := by
  induction cs with
  | nil => rfl
  | cons c cs ih =>
    cases hc : Text.isBlank c with
    | true => rw [List.dropWhile_cons_of_pos hc, ih, layersBackward_blank hc]
    | false => rw [List.dropWhile_cons_of_neg (by simp [hc])]

/-- A type that is no array has one layer. -/
theorem layersBackward_single {c : Char} {cs : List Char} (hc : Text.isBlank c = false)
    (hne : ∀ rest, c = ']' → cs = '[' :: rest → False) : layersBackward (c :: cs) = [c :: cs] := by
  rw [layersBackward]
  · rw [if_neg (by simp [hc])]
  · exact hne

/-- The layers of a type that is given backwards, each without blanks around it. -/
def trimmedLayers (cs : List Char) : List String :=
  (layersBackward cs).map fun l => String.ofList (Text.trimStart l.reverse)

theorem trimStart_reverse_append {w : List Char} (hw : ∀ c ∈ w, Text.isBlank c = true)
    (cs : List Char) : Text.trimStart (cs ++ w).reverse = Text.trimStart cs.reverse := by
  unfold Text.trimStart
  rw [List.reverse_append, List.dropWhile_append_of_pos fun c hc => hw c (List.mem_reverse.mp hc)]

/-- Blanks before a type do not change its layers. -/
theorem trimmedLayers_append {w : List Char} (hw : ∀ c ∈ w, Text.isBlank c = true)
    (cs : List Char) : trimmedLayers (cs ++ w) = trimmedLayers cs := by
  fun_induction layersBackward cs with
  | case1 =>
    have hnil : w.dropWhile Text.isBlank = [] := List.dropWhile_eq_nil_iff.mpr hw
    unfold trimmedLayers
    rw [List.nil_append, ← layersBackward_dropWhile, hnil]
  | case2 cs ih =>
    unfold trimmedLayers at ih ⊢
    rw [List.cons_append, List.cons_append, layersBackward, layersBackward, List.map_cons,
      List.map_cons, ih, ← List.cons_append, ← List.cons_append, trimStart_reverse_append hw]
  | case3 c cs hne hc ih =>
    unfold trimmedLayers at ih ⊢
    rw [List.cons_append, layersBackward_blank hc, layersBackward_blank hc, ih]
  | case4 c cs hne hc =>
    -- The brackets cannot come from the blanks.
    have hne' : ∀ rest, c = ']' → cs ++ w = '[' :: rest → False := by
      intro rest hclosing happend
      cases cs with
      | nil =>
        have hopening := hw '[' (by rw [← List.nil_append w, happend]; exact List.mem_cons_self)
        exact nomatch isBlank_opening.symm.trans hopening
      | cons x xs => exact hne xs hclosing (by rw [(List.cons.inj happend).1])
    have hc := Bool.eq_false_iff.mpr hc
    unfold trimmedLayers
    rw [List.cons_append, layersBackward_single hc hne', layersBackward_single hc hne,
      List.map_singleton, List.map_singleton, ← List.cons_append, trimStart_reverse_append hw]

theorem element?_ofList_reverse (cs : List Char) :
    element? (String.ofList (Text.trimStart cs.reverse)) =
      match Text.trimEnd cs with
      | ']' :: '[' :: rest => some (String.ofList rest.reverse)
      | _ => none := by
  unfold element?
  rw [String.toList_ofList]
  rfl

theorem trimmedLayers_array (cs : List Char) :
    trimmedLayers (']' :: '[' :: cs) =
      String.ofList (Text.trimStart (']' :: '[' :: cs).reverse) ::
        (element? (String.ofList (Text.trimStart (']' :: '[' :: cs).reverse))).elim [] layers := by
  obtain ⟨w, hcs, hw⟩ := Text.exists_trimEnd_append cs
  have hend : Text.trimEnd (']' :: '[' :: cs) = ']' :: '[' :: Text.trimEnd cs := by
    rw [Text.trimEnd_cons, Text.trimEnd_cons, isBlank_opening, isBlank_closing]
    rfl
  have hinner : trimmedLayers cs = layers (String.ofList (Text.trimEnd cs).reverse) := by
    conv => lhs; rw [hcs, trimmedLayers_append hw]
    unfold layers trimmedLayers
    rw [String.toList_ofList, List.reverse_reverse]
  rw [element?_ofList_reverse, hend]
  change _ = _ :: layers (String.ofList (Text.trimEnd cs).reverse)
  rw [← hinner]
  unfold trimmedLayers
  rw [layersBackward, List.map_cons]

theorem trimmedLayers_single {cs : List Char}
    (hblank : ∀ c rest, cs = c :: rest → Text.isBlank c = false)
    (hne : ∀ rest, cs ≠ ']' :: '[' :: rest) :
    trimmedLayers cs = String.ofList (Text.trimStart cs.reverse) ::
      (element? (String.ofList (Text.trimStart cs.reverse))).elim [] layers := by
  have hnone : element? (String.ofList (Text.trimStart cs.reverse)) = none := by
    obtain ⟨w, hcs, -⟩ := Text.exists_trimEnd_append cs
    rw [element?_ofList_reverse]
    split
    · next rest hrest => exact absurd (by rw [hcs, hrest]; rfl) (hne (rest ++ w))
    · rfl
  have hlayers : layersBackward cs = [cs] := by
    cases cs with
    | nil => rfl
    | cons c cs =>
      refine layersBackward_single (hblank c cs rfl) fun rest hc hcs => ?_
      exact hne rest (by rw [hc, hcs])
  rw [hnone]
  unfold trimmedLayers
  rw [hlayers]
  rfl

/-- **The layers of a type**: the type without blanks around it, and the layers of its element type
if it is an array. -/
theorem layers_eq (type : String) :
    layers type = Text.trim type :: (element? (Text.trim type)).elim [] layers := by
  have hbackward : layers type = trimmedLayers (type.toList.reverse.dropWhile Text.isBlank) := by
    unfold layers trimmedLayers
    rw [layersBackward_dropWhile]
  have htrim : Text.trim type =
      String.ofList (Text.trimStart (type.toList.reverse.dropWhile Text.isBlank).reverse) := by
    unfold Text.trim
    rw [← Text.trimStart_trimEnd]
    rfl
  have hblank : ∀ c rest, type.toList.reverse.dropWhile Text.isBlank = c :: rest →
      Text.isBlank c = false := by
    intro c rest hc
    have hhead := List.head?_dropWhile_not Text.isBlank type.toList.reverse
    rw [hc] at hhead
    simpa using hhead
  rw [hbackward, htrim]
  generalize type.toList.reverse.dropWhile Text.isBlank = cs at hblank
  by_cases harray : ∃ rest, cs = ']' :: '[' :: rest
  · obtain ⟨rest, rfl⟩ := harray
    exact trimmedLayers_array rest
  · exact trimmedLayers_single hblank fun rest hrest => harray ⟨rest, hrest⟩

/-- **The spelling of a type**, from the outside in. -/
theorem spell_eq (t : TypeNames) (type : String) :
    t.spell type =
      match t.table.get? (Text.trim type), element? (Text.trim type) with
      | some spelling, _ => some spelling
      | none, some element => (t.spell element).map (Text.fill t.arrayFormat)
      | none, none => if Text.trim type ∈ t.known then some (Text.trim type) else none := by
  change t.spellLayers (layers type) = _
  rw [layers_eq type]
  unfold spellLayers
  cases t.table.get? (Text.trim type) with
  | some spelling => rfl
  | none =>
    cases element? (Text.trim type) with
    | none => rfl
    | some element =>
      dsimp only [Option.elim_some]
      unfold spell
      rw [layers_eq element]

end TypeNames

end ClassIdiom
