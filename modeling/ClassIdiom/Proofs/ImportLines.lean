import Mathlib.Data.List.Basic
import ClassIdiom.Proofs.Imports

/-! # The import lines of a text

The imports that a text asks for are those with a trigger that occurs in it (`Preamble.asked`). From
these the lines are made, one a path. `OrderedSet.Lists` says what it is to list the entries of a
list each once and in the order of their first places; an ordered set does so
(`lists_ofList`), and nothing else does (`Lists.unique`). Hence `autoImportLines_exact`: the paths
that are asked for are listed so, and on the line of a path its names. -/

namespace ClassIdiom

open Text (Occurs)

/-! ### First places -/

namespace OrderedSet

variable {α : Type} [DecidableEq α] {xs ys : List α}

/-- **Each entry once, in the order of first places**: `ys` has the entries of `xs`, and what comes
earlier in `ys` comes up earlier in `xs`. -/
structure Lists (xs ys : List α) : Prop where
  mem_iff : ∀ a, a ∈ ys ↔ a ∈ xs
  order : ys.Pairwise fun a b => xs.idxOf a < xs.idxOf b

theorem Lists.nodup (h : Lists xs ys) : ys.Nodup := by
  refine h.order.imp fun {a b} hlt heq => ?_
  rw [heq] at hlt
  exact Nat.lt_irrefl _ hlt

/-- There is one way to list entries so. -/
theorem Lists.unique {zs : List α} (h : Lists xs ys) (h' : Lists xs zs) : ys = zs := by
  have hperm : ys.Perm zs :=
    (List.perm_ext_iff_of_nodup h.nodup h'.nodup).mpr fun a =>
      (h.mem_iff a).trans (h'.mem_iff a).symm
  refine hperm.eq_of_pairwise (fun a b _ _ hab hba => ?_) h.order h'.order
  exact absurd (Nat.lt_trans hab hba) (Nat.lt_irrefl _)

/-- One more entry goes to the end, unless it has come up before. -/
theorem Lists.insert {s : OrderedSet α} (h : Lists xs s.toList) (a : α) :
    Lists (xs ++ [a]) (s.insert a).toList := by
  have hplace : ∀ b ∈ s.toList, (xs ++ [a]).idxOf b = xs.idxOf b := fun b hb =>
    List.idxOf_append_of_mem ((h.mem_iff b).mp hb)
  have horder : s.toList.Pairwise fun b c => (xs ++ [a]).idxOf b < (xs ++ [a]).idxOf c := by
    refine h.order.imp_of_mem fun {b c} hb hc hlt => ?_
    rw [hplace b hb, hplace c hc]
    exact hlt
  constructor
  · intro b
    change b ∈ s.insert a ↔ _
    rw [mem_insert, mem_def, h.mem_iff, List.mem_append, List.mem_singleton]
  · unfold OrderedSet.insert
    split
    · exact horder
    · next hnew =>
      have hlast : (xs ++ [a]).idxOf a = xs.length := by
        rw [List.idxOf_append_of_notMem fun ha => hnew ((h.mem_iff a).mpr ha)]
        simp
      refine List.pairwise_append.mpr ⟨horder, List.pairwise_singleton _ _, fun b hb c hc => ?_⟩
      rw [List.mem_singleton.mp hc, hlast, hplace b hb]
      exact List.idxOf_lt_length_iff.mpr ((h.mem_iff b).mp hb)

theorem Lists.insertAll {s : OrderedSet α} (h : Lists xs s.toList) (l : List α) :
    Lists (xs ++ l) (s.insertAll l).toList := by
  induction l generalizing xs s with
  | nil => rwa [List.append_nil]
  | cons a l ih =>
    have hrest := ih (h.insert a)
    rwa [List.append_assoc, List.singleton_append] at hrest

/-- **The entries of a list as an ordered set** are listed by their first places. -/
theorem lists_ofList (l : List α) : Lists l (ofList l).toList := by
  have hempty : Lists [] (empty : OrderedSet α).toList :=
    ⟨fun _ => Iff.rfl, List.Pairwise.nil⟩
  exact hempty.insertAll l

end OrderedSet

/-! ### Imports that are asked for -/

namespace Preamble

/-- **The imports that a text asks for**, in the order of the profile: one of their triggers occurs
in it. -/
def asked (p : Preamble) (text : String) : List AutoImport :=
  p.autoImports.filter fun i => ∃ trigger ∈ i.triggers, Occurs trigger text

/-- The paths of imports, one for each import. -/
def paths (imports : List AutoImport) : List String := imports.map (·.path)

/-- The names that imports take from a path, one for each import that has a name. -/
def namesAt (imports : List AutoImport) (path : String) : List String :=
  (imports.filter (·.path = path)).filterMap (·.name)

/-- No trigger of an import can overlap itself. -/
def Separable (p : Preamble) : Prop :=
  ∀ i ∈ p.autoImports, ∀ trigger ∈ i.triggers, trigger ≠ "" ∧ Text.Unbordered trigger.toList

variable {p : Preamble}

theorem triggered_iff (h : p.Separable) {i : AutoImport} (hi : i ∈ p.autoImports) (text : String) :
    triggered text i = true ↔ ∃ trigger ∈ i.triggers, Occurs trigger text := by
  have hfound : ∀ trigger ∈ i.triggers,
      (Text.containsToken text trigger = true ↔ Occurs trigger text) := fun trigger ht =>
    Text.containsToken_iff_occurs (h i hi trigger ht).1 (h i hi trigger ht).2
  unfold triggered
  rw [List.any_eq_true]
  exact exists_congr fun trigger => and_congr_right (hfound trigger)

/-- The imports whose triggers are found are those that the text asks for. -/
theorem filter_triggered (h : p.Separable) (text : String) :
    p.autoImports.filter (triggered text) = p.asked text := by
  refine List.filter_congr fun i hi => ?_
  rw [Bool.eq_iff_iff, triggered_iff h hi, decide_eq_true_iff]

/-- The lines list the paths that are asked for, and with each path its names. -/
theorem autoImportLines_eq (h : p.Separable) {text : String} {listed : List String}
    {names : String → List String} (hlisted : OrderedSet.Lists (paths (p.asked text)) listed)
    (hnames : ∀ path, OrderedSet.Lists (namesAt (p.asked text) path) (names path)) :
    p.autoImportLines text = listed.map fun path => p.autoImportLine path (names path) := by
  have hfilter (path : String) :
      (p.asked text).filter (·.path == path) = (p.asked text).filter (·.path = path) :=
    List.filter_congr fun i _ => beq_eq_decide _ _
  have hpaths : (OrderedSet.ofList ((p.asked text).map (·.path))).toList = listed :=
    (OrderedSet.lists_ofList _).unique hlisted
  unfold autoImportLines
  simp only [filter_triggered h, hpaths]
  refine List.map_congr_left fun path _ => congrArg (p.autoImportLine path) ?_
  unfold importedNames
  rw [hfilter]
  exact (OrderedSet.lists_ofList _).unique (hnames path)

end Preamble

/-! ### The targets -/

/-- The line that imports names from a path. An include takes all there is. -/
def Target.importLine (t : Target) (path : String) (names : List String) : String :=
  match t with
  | .java => "import " ++ path ++ "." ++ ", ".intercalate names ++ ";"
  | .cpp => "#include <" ++ path ++ ">"
  | .python => "from " ++ path ++ " import " ++ ", ".intercalate names

namespace Profile

theorem separable_builtIn (t : Target) : (builtIn t).style.preamble.Separable := by
  cases t with
  | java => exact fun i hi => nomatch hi
  | cpp =>
    have hs := searchable_of_profile (p := .cpp) (.inl rfl)
    exact fun i hi trigger ht => ⟨hs.nonempty i hi trigger ht, hs.unbordered i hi trigger ht⟩
  | python =>
    have hs := searchable_of_profile (p := .python) (.inr rfl)
    exact fun i hi trigger ht => ⟨hs.nonempty i hi trigger ht, hs.unbordered i hi trigger ht⟩

theorem autoImportLine_builtIn (t : Target) {text path : String}
    (hpath : path ∈ Preamble.paths ((builtIn t).style.preamble.asked text)) (names : List String) :
    (builtIn t).style.preamble.autoImportLine path names = t.importLine path names := by
  obtain ⟨i, hi, rfl⟩ := List.mem_map.mp hpath
  have hi := (List.mem_filter.mp hi).1
  cases t with
  | java => exact nomatch hi
  | cpp => exact autoImportLine_cpp (not_mem_path_of_profile (.inl rfl) hi) names
  | python => exact autoImportLine_python (not_mem_path_of_profile (.inr rfl) hi) names

/-- **The import lines of a text are exact** for each target: there is one line for each path that an
entry with a trigger in the text has and none for any other, the paths are in the order of the first
such entries, and the line of a path has exactly the names of such entries, each once and in order.
-/
theorem autoImportLines_exact (t : Target) (text : String) (lines : List String) :
    (builtIn t).style.preamble.autoImportLines text = lines ↔
      ∃ (listed : List String) (names : String → List String),
        OrderedSet.Lists (Preamble.paths ((builtIn t).style.preamble.asked text)) listed ∧
        (∀ path, OrderedSet.Lists
          (Preamble.namesAt ((builtIn t).style.preamble.asked text) path) (names path)) ∧
        lines = listed.map fun path => t.importLine path (names path) := by
  have hlines {listed : List String} {names : String → List String}
      (hlisted : OrderedSet.Lists (Preamble.paths ((builtIn t).style.preamble.asked text)) listed)
      (hnames : ∀ path, OrderedSet.Lists
        (Preamble.namesAt ((builtIn t).style.preamble.asked text) path) (names path)) :
      (builtIn t).style.preamble.autoImportLines text =
        listed.map fun path => t.importLine path (names path) := by
    rw [Preamble.autoImportLines_eq (separable_builtIn t) hlisted hnames]
    refine List.map_congr_left fun path hpath => ?_
    exact autoImportLine_builtIn t ((hlisted.mem_iff path).mp hpath) _
  constructor
  · rintro rfl
    exact ⟨_, _, OrderedSet.lists_ofList _, fun path => OrderedSet.lists_ofList _,
      hlines (OrderedSet.lists_ofList _) fun path => OrderedSet.lists_ofList _⟩
  · rintro ⟨listed, names, hlisted, hnames, rfl⟩
    exact hlines hlisted hnames

/-- The first place of the token is turned down and the second one counts. -/
example : python.style.preamble.autoImportLines "x: Finally | Final[Decimal]  # @override" =
    ["from decimal import Decimal", "from typing import Final, override"] := by decide +kernel

end Profile

end ClassIdiom
