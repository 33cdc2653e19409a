import Mathlib.Logic.Basic
import ClassIdiom.Proofs.Ancestors

/-! # The nearest ancestor

The search goes through the types level by level: the given parents, then their parents, and so on.
To say so, each type of the queue is taken with its level. The levels never fall along the queue, and
no two of them are more than one apart (`Leveled`), so a visit may put the parents at the end. The
first type of the queue then has the lowest level of all that is still ahead (`Leveled.le_of_ahead`).

A visit takes the type out of the hierarchy. What is ahead of the queue does not come nearer by that
(`Ahead.of_visited`), and what is no longer reached through the visited type is reached at least as
soon through one of its parents (`Ahead.visit`). -/

namespace ClassIdiom

namespace Hierarchy

variable {h : Hierarchy} {s : Signature}

/-! ### Chains of parents -/

/-- **A chain of links**: so many of them lead from one type to another. -/
inductive Ascends (link : String → String → Prop) (start : String) : Nat → String → Prop where
  | refl : Ascends link start 0 start
  | step {n : Nat} {child parent : String} (up : Ascends link start n child)
      (linked : link child parent) : Ascends link start (n + 1) parent

/-- A type is reached from some by a chain of so many parents. -/
def ReachedIn (h : Hierarchy) (starts : List String) (n : Nat) (type : String) : Prop :=
  ∃ start ∈ starts, Ascends h.HasParent start n type

/-- A type is known to declare a signature. -/
def Declares (h : Hierarchy) (s : Signature) (type : String) : Prop :=
  s ∈ (h.known type).signatures

instance (type : String) : Decidable (h.Declares s type) :=
  inferInstanceAs (Decidable (s ∈ (h.known type).signatures))

namespace Ascends

variable {link link' : String → String → Prop} {a b c : String} {n : Nat}

theorem mono (hup : Ascends link' a n b)
    (hlink : ∀ child parent, link' child parent → link child parent) : Ascends link a n b := by
  induction hup with
  | refl => exact .refl
  | step _ linked ih => exact .step ih (hlink _ _ linked)

theorem head (hab : link a b) (hbc : Ascends link b n c) : Ascends link a (n + 1) c := by
  induction hbc with
  | refl => exact .step .refl hab
  | step _ linked ih => exact .step ih linked

end Ascends

/-- Without a type that does not declare the signature, the same types declare it. -/
theorem declares_without_iff {name type : String} (hname : ¬ h.Declares s name) :
    (h.without name).Declares s type ↔ h.Declares s type := by
  unfold Declares at hname ⊢
  rw [known_without]
  split
  · next htype =>
    subst htype
    exact iff_of_false nofun hname
  · rfl

theorem declares_iff_of_get? {name : String} {k : KnownType}
    (hget : h.types.get? name = some k) : h.Declares s name ↔ s ∈ k.signatures := by
  unfold Declares
  rw [known_of_get? hget]

theorem not_declares_of_get?_eq_none {name : String} (hget : h.types.get? name = none) :
    ¬ h.Declares s name := by
  unfold Declares
  rw [known_of_get?_eq_none hget]
  exact nofun

/-! ### What is ahead of a queue -/

/-- From a queue whose types have levels, a type is reached at a level. -/
def Ahead (h : Hierarchy) (queue : List (Nat × String)) (level : Nat) (type : String) : Prop :=
  ∃ e ∈ queue, ∃ n, Ascends h.HasParent e.2 n type ∧ e.1 + n = level

/-- **The levels of a queue**: of two types, the later one has the same level or the next. -/
def Leveled (queue : List (Nat × String)) : Prop :=
  queue.Pairwise fun e e' => e.1 ≤ e'.1 ∧ e'.1 ≤ e.1 + 1

/-- The parents of a type that is visited at a level, with their own level. -/
def parentsAt (h : Hierarchy) (level : Nat) (name : String) : List (Nat × String) :=
  (h.known name).parents.map fun parent => (level + 1, parent)

variable {queue rest : List (Nat × String)} {level n : Nat} {name type : String}

theorem map_snd_parentsAt : (h.parentsAt level name).map Prod.snd = (h.known name).parents := by
  simp [parentsAt, Function.comp_def]

theorem Leveled.visit (hq : Leveled ((level, name) :: rest)) :
    Leveled (rest ++ h.parentsAt level name) := by
  obtain ⟨hfirst, hrest⟩ := List.pairwise_cons.mp hq
  refine List.pairwise_append.mpr ⟨hrest, ?_, fun e he e' he' => ?_⟩
  · refine List.pairwise_map.mpr (List.pairwise_of_forall fun _ _ => ?_)
    exact ⟨Nat.le_refl _, Nat.le_succ _⟩
  · obtain ⟨parent, -, rfl⟩ := List.mem_map.mp he'
    have := hfirst e he
    change e.1 ≤ level + 1 ∧ level + 1 ≤ e.1 + 1
    omega

theorem Leveled.le_of_mem (hq : Leveled ((level, name) :: rest)) {e : Nat × String}
    (he : e ∈ (level, name) :: rest) : level ≤ e.1 := by
  rcases List.mem_cons.mp he with rfl | he
  · exact Nat.le_refl _
  · exact ((List.pairwise_cons.mp hq).1 e he).1

theorem Leveled.le_of_ahead (hq : Leveled ((level, name) :: rest))
    (ha : h.Ahead ((level, name) :: rest) n type) : level ≤ n := by
  obtain ⟨e, he, k, -, rfl⟩ := ha
  have := hq.le_of_mem he
  omega

namespace Ahead

theorem step {child parent : String} (ha : h.Ahead queue n child)
    (hp : h.HasParent child parent) : h.Ahead queue (n + 1) parent := by
  obtain ⟨e, he, k, hup, rfl⟩ := ha
  exact ⟨e, he, k + 1, .step hup hp, rfl⟩

theorem mono {h' : Hierarchy} {queue' : List (Nat × String)} (ha : h'.Ahead queue' n type)
    (hsub : queue' ⊆ queue)
    (hlink : ∀ child parent, h'.HasParent child parent → h.HasParent child parent) :
    h.Ahead queue n type := by
  obtain ⟨e, he, k, hup, rfl⟩ := ha
  exact ⟨e, hsub he, k, hup.mono hlink, rfl⟩

/-- What is ahead after a visit was ahead before it, at the same level. -/
theorem of_visited (ha : (h.without name).Ahead (rest ++ h.parentsAt level name) n type) :
    h.Ahead ((level, name) :: rest) n type := by
  obtain ⟨e, he, k, hup, rfl⟩ := ha
  have hup := hup.mono fun _ _ => hasParent_of_without
  rcases List.mem_append.mp he with he | he
  · exact ⟨e, List.mem_cons_of_mem _ he, k, hup, rfl⟩
  · obtain ⟨parent, hparent, rfl⟩ := List.mem_map.mp he
    refine ⟨(level, name), List.mem_cons_self, k + 1, .head hparent hup, ?_⟩
    change level + (k + 1) = level + 1 + k
    omega

/-- What is ahead of a queue is its first type, or it is ahead after that one is visited, at the same
level or a lower one. -/
theorem visit (hq : Leveled ((level, name) :: rest))
    (ha : h.Ahead ((level, name) :: rest) n type) :
    type = name ∨
      ∃ k ≤ n, (h.without name).Ahead (rest ++ h.parentsAt level name) k type := by
  obtain ⟨e, he, k, hup, rfl⟩ := ha
  have hlevel := hq.le_of_mem he
  induction hup with
  | refl =>
    rcases List.mem_cons.mp he with rfl | he
    · exact .inl rfl
    · exact .inr ⟨e.1, Nat.le_refl _, e, List.mem_append_left _ he, 0, .refl, rfl⟩
  | @step k child parent _ linked ih =>
    right
    by_cases hchild : child = name
    · -- A chain that comes back to the first type is cut there: its parents are the next level.
      subst hchild
      have hmem : (level + 1, parent) ∈ h.parentsAt level child := List.mem_map_of_mem linked
      exact ⟨level + 1, by omega, _, List.mem_append_right _ hmem, 0, .refl, rfl⟩
    · obtain ⟨j, hj, ha⟩ := ih.resolve_left hchild
      exact ⟨j + 1, by omega, ha.step (hasParent_without hchild linked)⟩

end Ahead

/-! ### The search -/

variable {unvisited : Table String KnownType} {a : String}

/-- Nothing that declares the signature is ahead of the queue at a lower level than one type. -/
def Nearest (h : Hierarchy) (s : Signature) (queue : List (Nat × String)) (a : String) : Prop :=
  ∃ n, h.Ahead queue n a ∧ ∀ type, h.Declares s type → ∀ k, h.Ahead queue k type → n ≤ k

theorem nearest_first (hq : Leveled ((level, name) :: rest)) :
    h.Nearest s ((level, name) :: rest) name :=
  ⟨level, ⟨(level, name), List.mem_cons_self, 0, .refl, rfl⟩, fun _ _ _ => hq.le_of_ahead⟩

/-- What is nearest after a visit was nearest before it, unless it is the visited type that declares
the signature. -/
theorem Nearest.of_visited (hq : Leveled ((level, name) :: rest)) (hname : ¬ h.Declares s name)
    (hnear : (h.without name).Nearest s (rest ++ h.parentsAt level name) a) :
    h.Nearest s ((level, name) :: rest) a := by
  obtain ⟨n, hn, hleast⟩ := hnear
  refine ⟨n, hn.of_visited, fun type htype k hk => ?_⟩
  have hne : type ≠ name := fun he => hname (he ▸ htype)
  obtain ⟨j, hj, ha⟩ := (hk.visit hq).resolve_left hne
  exact Nat.le_trans (hleast type ((declares_without_iff hname).mpr htype) j ha) hj

/-- A type of which nothing is known leaves the hierarchy as it is when it is visited. -/
theorem Nearest.of_unknown (hq : Leveled ((level, name) :: rest))
    (hget : h.types.get? name = none) (hnear : h.Nearest s rest a) :
    h.Nearest s ((level, name) :: rest) a := by
  obtain ⟨n, hn, hleast⟩ := hnear
  have hparents : h.parentsAt level name = [] := by
    unfold parentsAt
    rw [known_of_get?_eq_none hget]
    rfl
  refine ⟨n, hn.mono (List.subset_cons_self _ _) fun _ _ => id, fun type htype k hk => ?_⟩
  have hne : type ≠ name := fun he => not_declares_of_get?_eq_none hget (he ▸ htype)
  obtain ⟨j, hj, ha⟩ := (hk.visit hq).resolve_left hne
  rw [hparents, List.append_nil] at ha
  have hahead := ha.mono (List.Subset.refl _) fun _ _ => hasParent_of_without
  exact Nat.le_trans (hleast type htype j hahead) hj

/-- **The search finds a nearest type** that declares the signature. -/
theorem nearest_search (hq : Leveled queue)
    (hs : search s unvisited (queue.map Prod.snd) = some a) :
    Nearest ⟨unvisited⟩ s queue a := by
  generalize hnames : queue.map Prod.snd = names at hs
  fun_induction search s unvisited names generalizing queue with
  | case1 => cases hs
  | case2 unvisited name names hget ih =>
    obtain ⟨⟨level, name⟩, rest, rfl, rfl, rfl⟩ := List.map_eq_cons_iff.mp hnames
    exact .of_unknown hq hget (ih (List.pairwise_cons.mp hq).2 rfl hs)
  | case3 unvisited name names known hget hmem =>
    obtain ⟨⟨level, name⟩, rest, rfl, rfl, rfl⟩ := List.map_eq_cons_iff.mp hnames
    obtain rfl := Option.some.inj hs
    exact nearest_first hq
  | case4 unvisited name names known hget hmem ih =>
    obtain ⟨⟨level, name⟩, rest, rfl, rfl, rfl⟩ := List.map_eq_cons_iff.mp hnames
    have hname : ¬ Declares ⟨unvisited⟩ s name := mt (declares_iff_of_get? hget).mp hmem
    refine .of_visited hq hname (ih hq.visit ?_ hs)
    rw [List.map_append, map_snd_parentsAt, known_of_get? hget]

/-- **The search goes through the front of the queue first**, in order. -/
theorem search_of_find? {front back : List String}
    (hfind : front.find? (Declares ⟨unvisited⟩ s ·) = some a) :
    search s unvisited (front ++ back) = some a := by
  generalize hnames : front ++ back = names
  fun_induction search s unvisited names generalizing front back with
  | case1 =>
    rw [(List.append_eq_nil_iff.mp hnames).1] at hfind
    cases hfind
  | case2 unvisited name names hget ih =>
    cases front with
    | nil => cases hfind
    | cons first front =>
      obtain ⟨rfl, rfl⟩ := List.cons.inj hnames
      have hfirst : ¬ Declares ⟨unvisited⟩ s first := not_declares_of_get?_eq_none hget
      rw [List.find?_cons_of_neg (by simpa using hfirst)] at hfind
      exact ih hfind rfl
  | case3 unvisited name names known hget hmem =>
    cases front with
    | nil => cases hfind
    | cons first front =>
      obtain ⟨rfl, rfl⟩ := List.cons.inj hnames
      have hfirst : Declares ⟨unvisited⟩ s first := (declares_iff_of_get? hget).mpr hmem
      rw [List.find?_cons_of_pos (by simpa using hfirst)] at hfind
      exact hfind
  | case4 unvisited name names known hget hmem ih =>
    cases front with
    | nil => cases hfind
    | cons first front =>
      obtain ⟨rfl, rfl⟩ := List.cons.inj hnames
      have hfirst : ¬ Declares ⟨unvisited⟩ s first := mt (declares_iff_of_get? hget).mp hmem
      rw [List.find?_cons_of_neg (by simpa using hfirst)] at hfind
      have hfind : front.find? (Declares ⟨unvisited.erase first⟩ s ·) = some a := by
        simpa only [declares_without_iff hfirst] using hfind
      -- The parents come after what is left of the front.
      exact ih hfind (List.append_assoc front back known.parents).symm

theorem ahead_start_iff {starts : List String} :
    h.Ahead (starts.map fun start => (0, start)) n type ↔ h.ReachedIn starts n type := by
  simp [Ahead, ReachedIn]

/-- **The search finds a nearest ancestor.** What it finds declares the signature and is reached by
a chain of parents than which no other type that declares it has a shorter one. If one of the given
parents declares it, the first of these is found. -/
theorem declaring?_nearest (h : Hierarchy) (starts : List String) (s : Signature) :
    (∀ a, h.declaring? starts s = some a →
      h.Declares s a ∧ ∃ n, h.ReachedIn starts n a ∧
        ∀ type, h.Declares s type → ∀ k, h.ReachedIn starts k type → n ≤ k) ∧
    ∀ a, starts.find? (h.Declares s ·) = some a → h.declaring? starts s = some a := by
  refine ⟨fun a ha => ⟨(sound_search ha).1, ?_⟩, fun a hfind => ?_⟩
  · have hlevels : Leveled (starts.map fun start => (0, start)) :=
      List.pairwise_map.mpr (List.pairwise_of_forall fun _ _ => ⟨Nat.le_refl _, Nat.le_succ _⟩)
    have hnear : h.Nearest s (starts.map fun start => (0, start)) a := by
      refine nearest_search hlevels ?_
      rw [List.map_map, Function.comp_def, List.map_id']
      exact ha
    simpa only [Nearest, ahead_start_iff] using hnear
  · have hfound : search s h.types (starts ++ []) = some a := search_of_find? hfind
    rwa [List.append_nil] at hfound

/-- A hierarchy in which the longer of two ways to a declared area comes first, with a circle on it.
-/
def plotInsertions : List Insertion := [
  .decl { name := "Garden", bases := ["Field"] },
  .decl { name := "Field", bases := ["Land"], capabilities := .ofList ["Garden"] },
  .decl { name := "Yard", bases := ["Missing"], capabilities := .ofList ["Plot"] },
  .signature "Land" ⟨"Area", []⟩,
  .signature "Plot" ⟨"Area", []⟩]

theorem declaring?_nearest_plot :
    ((ofInsertions plotInsertions).declaring? ["Missing", "Garden", "Yard"] ⟨"Area", []⟩ =
        some "Plot" ∧
      (ofInsertions plotInsertions).Declares ⟨"Area", []⟩ "Plot" ∧
      ∃ n, (ofInsertions plotInsertions).ReachedIn ["Missing", "Garden", "Yard"] n "Plot" ∧
        ∀ type, (ofInsertions plotInsertions).Declares ⟨"Area", []⟩ type → ∀ k,
          (ofInsertions plotInsertions).ReachedIn ["Missing", "Garden", "Yard"] k type → n ≤ k) ∧
    ["Yard", "Land", "Plot"].find? ((ofInsertions plotInsertions).Declares ⟨"Area", []⟩ ·) =
      some "Land" ∧
    (ofInsertions plotInsertions).declaring? ["Yard", "Land", "Plot"] ⟨"Area", []⟩ =
      some "Land" := by
  have hfound : (ofInsertions plotInsertions).declaring? ["Missing", "Garden", "Yard"]
      ⟨"Area", []⟩ = some "Plot" := by
    refine (search_of_unknown rfl _).trans ((search_of_not_mem rfl (by decide) _).trans ?_)
    refine (search_of_not_mem rfl (by decide) _).trans ?_
    refine (search_of_not_mem rfl (by decide) _).trans ((search_of_unknown rfl _).trans ?_)
    exact search_of_mem rfl (by decide) _
  have hfirst : ["Yard", "Land", "Plot"].find?
      ((ofInsertions plotInsertions).Declares ⟨"Area", []⟩ ·) = some "Land" := by
    decide
  obtain ⟨hnear, -⟩ := declaring?_nearest (ofInsertions plotInsertions)
    ["Missing", "Garden", "Yard"] ⟨"Area", []⟩
  obtain ⟨-, horder⟩ := declaring?_nearest (ofInsertions plotInsertions)
    ["Yard", "Land", "Plot"] ⟨"Area", []⟩
  exact ⟨⟨hfound, hnear "Plot" hfound⟩, hfirst, horder "Land" hfirst⟩

end Hierarchy

end ClassIdiom
