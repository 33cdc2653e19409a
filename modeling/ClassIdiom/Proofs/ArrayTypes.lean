import Mathlib.Data.List.DropRight
import Mathlib.Data.List.Infix
import Mathlib.Logic.Function.Iterate
import ClassIdiom.Profile.BuiltIn
import ClassIdiom.Proofs.Spelling

/-! # Array types, whatever the blanks

A type may have blanks around it and before each pair of brackets. None of them counts:

* `spell_of_trim_eq`: types that differ by blanks around them only have one spelling;
* `spell_array`: an array type that is not in the table itself is spelled by its element type;
* `spell_bracketed`: so are arrays of arrays, by as many steps as there are pairs of brackets;
* `spell_known_append`: known names that the table or the rule for arrays takes care of are never
  asked for, however deep the type is nested.

`spell_elementwise` has them together. -/

namespace ClassIdiom

open Text (AllBlank)

namespace Text

variable {w : String}

theorem trim_blank_append (hw : AllBlank w) (s : String) : trim (w ++ s) = trim s := by
  unfold trim trimChars trimStart
  rw [String.toList_append, List.dropWhile_append_of_pos hw]

theorem trim_append_blank (hw : AllBlank w) (s : String) : trim (s ++ w) = trim s := by
  have hend : trimEnd (s ++ w).toList = trimEnd s.toList := by
    unfold trimEnd
    rw [String.toList_append, List.reverse_append,
      List.dropWhile_append_of_pos fun c hc => hw c (List.mem_reverse.mp hc)]
  unfold trim
  rw [← trimStart_trimEnd, hend, trimStart_trimEnd]

theorem trim_trimStart (s : String) : trim (String.ofList (trimStart s.toList)) = trim s := by
  unfold trim trimChars trimStart
  rw [String.toList_ofList, List.dropWhile_idempotent]

/-- Brackets are not blank, so they keep what is before them from being cut off at the end. -/
theorem trim_brackets (s : String) :
    trim (s ++ "[]") = String.ofList (trimStart s.toList) ++ "[]" := by
  have hstart : trimStart (s.toList ++ ['[', ']']) = trimStart s.toList ++ ['[', ']'] := by
    unfold trimStart
    rw [List.dropWhile_append]
    cases s.toList.dropWhile isBlank <;> rfl
  have hend (cs : List Char) : trimEnd (cs ++ ['[', ']']) = cs ++ ['[', ']'] := by
    have hclosing : ¬ isBlank ']' = true := by decide
    unfold trimEnd
    rw [List.reverse_append, List.reverse_cons, List.reverse_singleton, List.singleton_append,
      List.cons_append, List.dropWhile_cons_of_neg hclosing]
    simp
  have hbrackets : "[]".toList = ['[', ']'] := rfl
  apply String.toList_injective
  unfold trim trimChars
  rw [String.toList_append, String.toList_append, hbrackets, String.toList_ofList,
    String.toList_ofList, hstart, hend]

end Text

namespace TypeNames

variable {t : TypeNames} {p : Profile} {known : List String} {s w : String}

/-! ### Blanks -/

theorem spell_of_trim_eq {type type' : String} (h : Text.trim type = Text.trim type') :
    t.spell type = t.spell type' := by
  rw [spell_eq t type, h, ← spell_eq t type']

theorem spell_blank_append (hw : AllBlank w) (s : String) : t.spell (w ++ s) = t.spell s :=
  spell_of_trim_eq (Text.trim_blank_append hw s)

theorem spell_append_blank (hw : AllBlank w) (s : String) : t.spell (s ++ w) = t.spell s :=
  spell_of_trim_eq (Text.trim_append_blank hw s)

/-! ### Entries and arrays -/

theorem spell_of_entry {spelling : String} (h : t.table.get? (Text.trim s) = some spelling) :
    t.spell s = some spelling := by
  rw [spell_eq, h]

/-- **An array type** is spelled by its element type, unless the table has it. -/
theorem spell_array (h : t.table.get? (Text.trim (s ++ "[]")) = none) :
    t.spell (s ++ "[]") = (t.spell s).map (Text.fill t.arrayFormat) := by
  have helement : element? (Text.trim (s ++ "[]")) =
      some (String.ofList (Text.trimStart s.toList)) :=
    element?_eq_some_iff.mpr (Text.trim_brackets s)
  rw [spell_eq, h, helement, ← spell_of_trim_eq (Text.trim_trimStart s)]

/-- The type with pairs of brackets behind it, each pair behind some blanks. -/
def bracketed (type : String) : List String → String
  | [] => type
  | w :: blanks => bracketed (type ++ w ++ "[]") blanks

/-- **An array type of any depth** is spelled by its innermost type, unless the table has it or one
of the array types within it. -/
theorem spell_bracketed {blanks : List String} (hblank : ∀ w ∈ blanks, AllBlank w)
    (hentry : ∀ front, front ≠ [] → front <+: blanks →
      t.table.get? (Text.trim (bracketed s front)) = none) :
    t.spell (bracketed s blanks) =
      (t.spell s).map ((Text.fill t.arrayFormat)^[blanks.length]) := by
  induction blanks generalizing s with
  | nil => simp [bracketed]
  | cons w blanks ih =>
    have houter : t.table.get? (Text.trim (s ++ w ++ "[]")) = none :=
      hentry [w] (List.cons_ne_nil _ _) (by simp)
    have hinner : ∀ front, front ≠ [] → front <+: blanks →
        t.table.get? (Text.trim (bracketed (s ++ w ++ "[]") front)) = none := by
      intro front _ hfront
      exact hentry (w :: front) (List.cons_ne_nil _ _) (List.cons_prefix_cons.mpr ⟨rfl, hfront⟩)
    rw [bracketed, ih (fun x hx => hblank x (List.mem_cons_of_mem _ hx)) hinner, spell_array houter,
      spell_append_blank (hblank w List.mem_cons_self), Option.map_map, List.length_cons,
      Function.iterate_succ]

/-! ### Known names -/

/-- The name is spelled by the table or as an array type, so it need not be known. -/
def Ruled (p : Profile) (name : String) : Prop :=
  p.types.get? name ≠ none ∨ ∃ element, name = element ++ "[]"

theorem length_element_lt {type element : String} (h : element? (Text.trim type) = some element) :
    element.toList.length < type.toList.length := by
  have htrim := Text.length_trimChars_le type.toList
  have hlength : (Text.trimChars type.toList).length = element.toList.length + 2 := by
    rw [← String.toList_ofList (l := Text.trimChars type.toList)]
    change (Text.trim type).toList.length = _
    rw [element?_eq_some_iff.mp h, String.toList_append, List.length_append]
    rfl
  omega

/-- **Known names that have a spelling anyway** change nothing, at whatever depth they stand in a
type. -/
theorem spell_known_append {more : List String} (h : ∀ name ∈ more, Ruled p name) (type : String) :
    (of p (more ++ known)).spell type = (of p known).spell type := by
  -- By the length of the type: its element type is shorter.
  induction hn : type.toList.length using Nat.strong_induction_on generalizing type with
  | _ n ih =>
    subst hn
    have htable (names : List String) :
        (of p names).table.get? (Text.trim type) = p.types.get? (Text.trim type) := rfl
    rw [spell_eq, spell_eq (of p known), htable, htable]
    cases hentry : p.types.get? (Text.trim type) with
    | some spelling => rfl
    | none =>
      cases helement : element? (Text.trim type) with
      | some element =>
        exact congrArg (Option.map _) (ih _ (length_element_lt helement) element rfl)
      | none =>
        have hnot : Text.trim type ∉ more := by
          intro hmem
          rcases h _ hmem with hkey | ⟨element, harray⟩
          · exact hkey hentry
          · exact nomatch helement.symm.trans (element?_eq_some_iff.mpr harray)
        have hknown : Text.trim type ∈ (of p (more ++ known)).known ↔
            Text.trim type ∈ (of p known).known := by
          simp [of, hnot]
        simp only [hknown]

/-! ### Together -/

/-- **Arrays are spelled element by element, whatever the blanks.** With blanks around it, before its
brackets and behind them, an array type that is not in the table has the format of arrays around the
spelling of its element type, if that has one; blanks around a type change nothing. The table goes
first, an array of any depth is spelled by its innermost type, and known names that are in the table
or end with brackets are not asked for at any depth. -/
theorem spell_elementwise (p : Profile) (known : List String) (s : String) {w₁ w₂ w₃ : String}
    (h₁ : AllBlank w₁) (h₂ : AllBlank w₂) (h₃ : AllBlank w₃) :
    (p.types.get? (Text.trim (s ++ w₂ ++ "[]")) = none →
      (of p known).spell (w₁ ++ s ++ w₂ ++ "[]" ++ w₃) =
        ((of p known).spell s).map (Text.fill p.arrayFormat)) ∧
    (of p known).spell (w₁ ++ s ++ w₂) = (of p known).spell s ∧
    (∀ spelling, p.types.get? (Text.trim s) = some spelling →
      (of p known).spell s = some spelling) ∧
    (∀ blanks, (∀ w ∈ blanks, AllBlank w) →
      (∀ front, front ≠ [] → front <+: blanks →
        p.types.get? (Text.trim (bracketed s front)) = none) →
      (of p known).spell (bracketed s blanks) =
        ((of p known).spell s).map ((Text.fill p.arrayFormat)^[blanks.length])) ∧
    ∀ more, (∀ name ∈ more, Ruled p name) →
      (of p (more ++ known)).spell s = (of p known).spell s := by
  refine ⟨fun hentry => ?_, ?_, fun spelling hentry => spell_of_entry hentry,
    fun blanks hblank hentry => spell_bracketed hblank hentry,
    fun more hmore => spell_known_append hmore s⟩
  · rw [spell_append_blank h₃, String.append_assoc, String.append_assoc, spell_blank_append h₁,
      ← String.append_assoc, spell_array hentry, spell_append_blank h₂]
    rfl
  · rw [spell_append_blank h₂, spell_blank_append h₁]

/-- Known names that the table and the rule for arrays come before. -/
def shadowed : List String := ["int", "int[]"]

theorem spell_elementwise_int :
    AllBlank "\t" ∧ AllBlank "\u2003" ∧ AllBlank "\n" ∧
      Profile.cpp.types.get? (Text.trim (" int" ++ "\u2003" ++ "[]")) = none ∧
      (of .cpp shadowed).spell ("\t" ++ " int" ++ "\u2003" ++ "[]" ++ "\n") =
        some "std::vector<int32_t>" ∧
      (of .cpp shadowed).spell ("\t" ++ " int" ++ "\u2003") = some "int32_t" ∧
      (of .cpp shadowed).spell (bracketed " int" ["\u2003", ""]) =
        some "std::vector<std::vector<int32_t>>" ∧
      (of .cpp (shadowed ++ ["Shape"])).spell " int" = (of .cpp ["Shape"]).spell " int" := by
  have htab : AllBlank "\t" := by decide
  have hspace : AllBlank "\u2003" := by decide
  have hfeed : AllBlank "\n" := by decide
  have hnone : Profile.cpp.types.get? (Text.trim (" int" ++ "\u2003" ++ "[]")) = none := by decide
  have hfronts : ∀ front, front ≠ [] → front <+: ["\u2003", ""] →
      Profile.cpp.types.get? (Text.trim (bracketed " int" front)) = none := by
    have hinits : ∀ front ∈ ["\u2003", ""].inits, front ≠ [] →
        Profile.cpp.types.get? (Text.trim (bracketed " int" front)) = none := by decide
    exact fun front hne hfront => hinits front ((List.mem_inits _ _).mpr hfront) hne
  have hruled : ∀ name ∈ shadowed, Ruled .cpp name := by
    intro name hname
    rcases List.mem_pair.mp hname with rfl | rfl
    · exact Or.inl (by decide)
    · exact Or.inr ⟨"int", rfl⟩
  obtain ⟨harray, hblank, hentry, hdeep, -⟩ :=
    spell_elementwise .cpp shadowed " int" htab hspace hfeed
  have hint : (of .cpp shadowed).spell " int" = some "int32_t" := hentry _ (by decide)
  refine ⟨htab, hspace, hfeed, hnone, ?_, hblank.trans hint, ?_,
    (spell_elementwise .cpp ["Shape"] " int" htab hspace hfeed).2.2.2.2 shadowed hruled⟩
  · rw [harray hnone, hint]
    rfl
  · rw [hdeep ["\u2003", ""] (by decide) hfronts, hint]
    rfl

end TypeNames

end ClassIdiom
