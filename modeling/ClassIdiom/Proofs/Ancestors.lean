import ClassIdiom.Hierarchy

/-! # The search for ancestors

A hierarchy grows by insertions, of declarations and of single signatures. What it knows of a type
in the end is what the insertions under its name say, in whatever order they came
(`mem_parents_ofInsertions`, `mem_signatures_ofInsertions`).

The search takes each type out of the hierarchy when it visits it. So it looks for the signature
among ever fewer types, and the two facts that carry it are about this loss:

* `Reachable.of_visited`: what is reached after a visit was reached before it;
* `Reachable.visit`: what was reached before a visit is the visited type or still reached after it.

`Rounds` tells the search as a loop with a queue and the types seen so far, and counts its rounds.
-/

namespace ClassIdiom

namespace Hierarchy

/-! ### Insertions -/

/-- A step by which a hierarchy grows. -/
inductive Insertion where
  | decl (d : Decl)
  | signature (name : String) (s : Signature)
deriving DecidableEq, Repr

namespace Insertion

/-- The type that more is known of. -/
def name : Insertion → String
  | decl d => d.name
  | signature name _ => name

/-- The parents that are added. -/
def parents : Insertion → List String
  | decl d => d.parents
  | signature _ _ => []

/-- The signatures that are added. -/
def signatures : Insertion → List Signature
  | decl d => d.signatures
  | signature _ s => [s]

/-- Makes the insertion. -/
def applyTo (h : Hierarchy) : Insertion → Hierarchy
  | decl d => h.insert d
  | signature name s => h.insertSignature name s

/-- One of the insertions adds a parent to a type. -/
def AddsParent (is : List Insertion) (child parent : String) : Prop :=
  ∃ i ∈ is, i.name = child ∧ parent ∈ i.parents

/-- One of the insertions adds a signature to a type. -/
def AddsSignature (is : List Insertion) (type : String) (s : Signature) : Prop :=
  ∃ i ∈ is, i.name = type ∧ s ∈ i.signatures

end Insertion

/-- The hierarchy that insertions make up, from the first to the last. -/
def ofInsertions (is : List Insertion) : Hierarchy := is.foldl Insertion.applyTo {}

variable {h : Hierarchy} {s : Signature} {is : List Insertion}

theorem known_of_get? {name : String} {k : KnownType} (hget : h.types.get? name = some k) :
    h.known name = k := by
  unfold known
  rw [hget]
  rfl

theorem known_of_get?_eq_none {name : String} (hget : h.types.get? name = none) :
    h.known name = {} := by
  unfold known
  rw [hget]
  rfl

theorem applyTo_eq (h : Hierarchy) (i : Insertion) :
    i.applyTo h = ⟨h.types.insert i.name ⟨(h.known i.name).parents ++ i.parents,
      (h.known i.name).signatures ++ i.signatures⟩⟩ := by
  cases i with
  | decl d => rfl
  | signature name s => simp [Insertion.applyTo, insertSignature, Insertion.name,
      Insertion.parents, Insertion.signatures]

theorem known_applyTo (h : Hierarchy) (i : Insertion) (type : String) :
    (i.applyTo h).known type =
      if type = i.name then
        ⟨(h.known i.name).parents ++ i.parents, (h.known i.name).signatures ++ i.signatures⟩
      else h.known type := by
  rw [applyTo_eq]
  unfold known
  rw [Table.get?_insert]
  split <;> rfl

/-- What is known of a type after some insertions was known before, or one of them adds it. -/
theorem mem_known_foldl {α : Type} (field : KnownType → List α) (added : Insertion → List α)
    (hadd : ∀ (h : Hierarchy) (i : Insertion),
      field ((i.applyTo h).known i.name) = field (h.known i.name) ++ added i)
    (is : List Insertion) (h : Hierarchy) (type : String) (x : α) :
    x ∈ field ((is.foldl Insertion.applyTo h).known type) ↔
      x ∈ field (h.known type) ∨ ∃ i ∈ is, i.name = type ∧ x ∈ added i := by
  induction is generalizing h with
  | nil => simp
  | cons i is ih =>
    rw [List.foldl_cons, ih]
    by_cases hi : type = i.name
    · subst hi
      simp [hadd, or_assoc]
    · have hsame : (i.applyTo h).known type = h.known type := by rw [known_applyTo, if_neg hi]
      simp [hsame, Ne.symm hi]

theorem mem_parents_ofInsertions {child parent : String} :
    parent ∈ ((ofInsertions is).known child).parents ↔ Insertion.AddsParent is child parent :=
  have hadd := fun h i => congrArg KnownType.parents ((known_applyTo h i i.name).trans (if_pos rfl))
  (mem_known_foldl _ _ hadd is {} child parent).trans (or_iff_right nofun)

theorem mem_signatures_ofInsertions {type : String} :
    s ∈ ((ofInsertions is).known type).signatures ↔ Insertion.AddsSignature is type s :=
  have hadd := fun h i =>
    congrArg KnownType.signatures ((known_applyTo h i i.name).trans (if_pos rfl))
  (mem_known_foldl _ _ hadd is {} type s).trans (or_iff_right nofun)

/-! ### What is reached -/

/-- **The types that are reached** from some, going from a type to another that it is linked to. -/
inductive Reachable (link : String → String → Prop) (starts : List String) : String → Prop where
  | start {type : String} (mem : type ∈ starts) : Reachable link starts type
  | step {child parent : String} (reached : Reachable link starts child)
      (linked : link child parent) : Reachable link starts parent

/-- A type has another one as a parent. -/
def HasParent (h : Hierarchy) (child parent : String) : Prop := parent ∈ (h.known child).parents

/-- The hierarchy in which nothing is known of the type with a name. -/
abbrev without (h : Hierarchy) (name : String) : Hierarchy := ⟨h.types.erase name⟩

theorem known_without (h : Hierarchy) (name type : String) :
    (h.without name).known type = if type = name then {} else h.known type := by
  unfold known without
  rw [Table.get?_erase]
  split <;> rfl

theorem Reachable.mono {link link' : String → String → Prop} {starts starts' : List String}
    {type : String} (hr : Reachable link' starts' type)
    (hstarts : ∀ x ∈ starts', Reachable link starts x)
    (hlink : ∀ child parent, link' child parent → link child parent) :
    Reachable link starts type := by
  induction hr with
  | start mem => exact hstarts _ mem
  | step _ linked ih => exact .step ih (hlink _ _ linked)

theorem hasParent_of_without {name child parent : String}
    (hp : (h.without name).HasParent child parent) : h.HasParent child parent := by
  unfold HasParent at hp ⊢
  rw [known_without] at hp
  split at hp
  · exact nomatch hp
  · exact hp

theorem hasParent_without {name child parent : String} (hne : child ≠ name)
    (hp : h.HasParent child parent) : (h.without name).HasParent child parent := by
  unfold HasParent
  rw [known_without, if_neg hne]
  exact hp

/-- Behind a visited type there is nothing that was not reached before. -/
theorem Reachable.of_visited {name type : String} {rest : List String}
    (hr : Reachable (h.without name).HasParent (rest ++ (h.known name).parents) type) :
    Reachable h.HasParent (name :: rest) type := by
  refine hr.mono (fun x hx => ?_) fun _ _ => hasParent_of_without
  rcases List.mem_append.mp hx with hx | hx
  · exact .start (List.mem_cons_of_mem _ hx)
  · exact .step (.start List.mem_cons_self) hx

/-- A type that is reached from the queue is its first one, or it is reached without going back to
that one: from the rest of the queue and the parents of the first. -/
theorem Reachable.visit {name type : String} {rest : List String}
    (hr : Reachable h.HasParent (name :: rest) type) :
    type = name ∨
      Reachable (h.without name).HasParent (rest ++ (h.known name).parents) type := by
  induction hr with
  | start mem =>
    rcases List.mem_cons.mp mem with rfl | hrest
    · exact .inl rfl
    · exact .inr (.start (List.mem_append_left _ hrest))
  | @step child parent _ linked ih =>
    -- A path that comes back to the first type starts anew at one of its parents.
    by_cases hchild : child = name
    · subst hchild
      exact .inr (.start (List.mem_append_right _ linked))
    · exact .inr (.step (ih.resolve_left hchild) (hasParent_without hchild linked))

theorem not_reachable_nil {link : String → String → Prop} {type : String} :
    ¬ Reachable link [] type := by
  intro hr
  induction hr with
  | start mem => exact nomatch mem
  | step _ _ ih => exact ih

/-! ### Soundness and completeness -/

variable {unvisited : Table String KnownType} {queue : List String}

theorem search_nil : search s unvisited [] = none := by rw [search]

theorem search_of_unknown (hget : unvisited.get? name = none) (rest : List String) :
    search s unvisited (name :: rest) = search s unvisited rest := by
  rw [search]
  split
  · rfl
  · next hknown => simp [hget] at hknown

theorem search_of_mem {known : KnownType} (hget : unvisited.get? name = some known)
    (hs : s ∈ known.signatures) (rest : List String) :
    search s unvisited (name :: rest) = some name := by
  rw [search]
  split
  · next hnone => simp [hget] at hnone
  · next hknown =>
    obtain rfl := Option.some.inj (hget.symm.trans hknown)
    exact if_pos hs

theorem search_of_not_mem {known : KnownType} (hget : unvisited.get? name = some known)
    (hs : s ∉ known.signatures) (rest : List String) :
    search s unvisited (name :: rest) =
      search s (unvisited.erase name) (rest ++ known.parents) := by
  rw [search]
  split
  · next hnone => simp [hget] at hnone
  · next hknown =>
    obtain rfl := Option.some.inj (hget.symm.trans hknown)
    exact if_neg hs

/-- **What the search finds** has the signature and is reached from the queue. -/
theorem sound_search {a : String} (hs : search s unvisited queue = some a) :
    s ∈ (Hierarchy.known ⟨unvisited⟩ a).signatures ∧
      Reachable (Hierarchy.HasParent ⟨unvisited⟩) queue a := by
  fun_induction search s unvisited queue with
  | case1 => exact nomatch hs
  | case2 unvisited name rest hget ih =>
    obtain ⟨hsig, hr⟩ := ih hs
    exact ⟨hsig, hr.mono (fun x hx => .start (List.mem_cons_of_mem _ hx)) fun _ _ => id⟩
  | case3 unvisited name rest known hget hmem =>
    obtain rfl := Option.some.inj hs
    refine ⟨?_, .start List.mem_cons_self⟩
    rw [known_of_get? hget]
    exact hmem
  | case4 unvisited name rest known hget hmem ih =>
    obtain ⟨hsig, hr⟩ := ih hs
    rw [known_without ⟨unvisited⟩ name] at hsig
    rw [← known_of_get? (h := ⟨unvisited⟩) hget] at hr
    refine ⟨?_, hr.of_visited⟩
    split at hsig
    · exact nomatch hsig
    · exact hsig

/-- **Where the search finds nothing**, no type that is reached from the queue has the signature. -/
theorem complete_search (hs : search s unvisited queue = none) {a : String}
    (hr : Reachable (Hierarchy.HasParent ⟨unvisited⟩) queue a) :
    s ∉ (Hierarchy.known ⟨unvisited⟩ a).signatures := by
  fun_induction search s unvisited queue with
  | case1 => exact absurd hr not_reachable_nil
  | case2 unvisited name rest hget ih =>
    have hknown := known_of_get?_eq_none (h := ⟨unvisited⟩) hget
    rcases hr.visit with rfl | hr
    · rw [hknown]
      exact nofun
    · rw [hknown, List.append_nil] at hr
      exact ih hs (hr.mono (fun x hx => .start hx) fun _ _ => hasParent_of_without)
  | case3 => exact nomatch hs
  | case4 unvisited name rest known hget hmem ih =>
    have hknown := known_of_get? (h := ⟨unvisited⟩) hget
    by_cases ha : a = name
    · rw [ha, hknown]
      exact hmem
    · have hr := hr.visit.resolve_left ha
      rw [hknown] at hr
      have hnot := ih hs hr
      rw [known_without ⟨unvisited⟩ name, if_neg ha] at hnot
      exact hnot

theorem declaring?_eq_none_iff {starts : List String} :
    h.declaring? starts s = none ↔
      ¬ ∃ a, Reachable h.HasParent starts a ∧ s ∈ (h.known a).signatures := by
  constructor
  · rintro hnone ⟨a, hr, hsig⟩
    exact complete_search hnone hr hsig
  · intro hnot
    cases hfound : h.declaring? starts s with
    | none => rfl
    | some a =>
      obtain ⟨hsig, hr⟩ := sound_search hfound
      exact absurd ⟨a, hr, hsig⟩ hnot

/-! ### Rounds -/

/-- **The search as a loop.** `Rounds h s seen queue answer n`: with these types seen and this queue,
the loop gives the answer after `n` rounds. A round takes the first type of the queue. It passes
over a type that was seen before or of which nothing is known, ends at one with the signature, and
puts the parents of any other one at the end of the queue. -/
inductive Rounds (h : Hierarchy) (s : Signature) :
    List String → List String → Option String → Nat → Prop where
  | done {seen : List String} : Rounds h s seen [] none 0
  | again {seen rest : List String} {name : String} {answer : Option String} {n : Nat}
      (old : name ∈ seen) (next : Rounds h s seen rest answer n) :
    Rounds h s seen (name :: rest) answer (n + 1)
  | unknown {seen rest : List String} {name : String} {answer : Option String} {n : Nat}
      (new : name ∉ seen) (nothing : h.types.get? name = none)
      (next : Rounds h s (name :: seen) rest answer n) :
    Rounds h s seen (name :: rest) answer (n + 1)
  | found {seen rest : List String} {name : String} {k : KnownType} (new : name ∉ seen)
      (known : h.types.get? name = some k) (declared : s ∈ k.signatures) :
    Rounds h s seen (name :: rest) (some name) 1
  | visit {seen rest : List String} {name : String} {k : KnownType} {answer : Option String}
      {n : Nat} (new : name ∉ seen) (known : h.types.get? name = some k)
      (undeclared : s ∉ k.signatures)
      (next : Rounds h s (name :: seen) (rest ++ k.parents) answer n) :
    Rounds h s seen (name :: rest) answer (n + 1)

/-- The number of parents that are recorded in a table, over all its types. -/
def parentCount (types : Table String KnownType) : Nat :=
  (types.entries.flatMap fun e => e.2.parents).length

theorem length_parents_filter_le (keep : String × KnownType → Bool)
    (entries : List (String × KnownType)) :
    ((entries.filter keep).flatMap fun e => e.2.parents).length ≤
      (entries.flatMap fun e => e.2.parents).length := by
  induction entries with
  | nil => exact Nat.le_refl 0
  | cons e entries ih =>
    by_cases hkeep : keep e = true
    · rw [List.filter_cons_of_pos hkeep, List.flatMap_cons, List.flatMap_cons, List.length_append,
        List.length_append]
      omega
    · rw [List.filter_cons_of_neg hkeep, List.flatMap_cons, List.length_append]
      omega

theorem parentCount_erase {name : String} {k : KnownType} (hget : unvisited.get? name = some k) :
    parentCount (unvisited.erase name) + k.parents.length ≤ parentCount unvisited := by
  unfold parentCount Table.erase
  unfold Table.get? at hget
  simp only
  generalize unvisited.entries = entries at hget
  induction entries with
  | nil =>
    rw [List.lookup_nil] at hget
    exact nomatch hget
  | cons e entries ih =>
    obtain ⟨key, k'⟩ := e
    rw [List.lookup_cons] at hget
    by_cases hkey : name = key
    · subst hkey
      obtain rfl : k' = k := by simpa using hget
      have hrest := length_parents_filter_le (fun e => e.1 ≠ name) entries
      rw [List.filter_cons_of_neg (by simp), List.flatMap_cons, List.length_append]
      change _ + k'.parents.length ≤ k'.parents.length + _
      omega
    · rw [beq_eq_false_iff_ne.mpr hkey] at hget
      have hrest := ih hget
      rw [List.filter_cons_of_pos (by simpa using Ne.symm hkey), List.flatMap_cons,
        List.flatMap_cons, List.length_append, List.length_append]
      omega

/-- The table holds what is known of the types that are not seen yet. -/
def Leaves (h : Hierarchy) (seen : List String) (unvisited : Table String KnownType) : Prop :=
  ∀ type, unvisited.get? type = if type ∈ seen then none else h.types.get? type

namespace Leaves

variable {seen : List String} {name : String}

theorem erase (hl : h.Leaves seen unvisited) (name : String) :
    h.Leaves (name :: seen) (unvisited.erase name) := by
  intro type
  rw [Table.get?_erase, hl type]
  by_cases htype : type = name <;> simp [htype]

theorem cons (hl : h.Leaves seen unvisited) (hget : unvisited.get? name = none) :
    h.Leaves (name :: seen) unvisited := by
  intro type
  rw [← hl.erase name type, Table.get?_erase]
  split
  · next htype => rw [htype, hget]
  · rfl

theorem get?_of_not_mem (hl : h.Leaves seen unvisited) (hseen : name ∉ seen) :
    h.types.get? name = unvisited.get? name := by
  rw [hl name, if_neg hseen]

theorem not_mem_of_get? (hl : h.Leaves seen unvisited) {k : KnownType}
    (hget : unvisited.get? name = some k) : name ∉ seen := by
  intro hseen
  rw [hl name, if_pos hseen] at hget
  exact nomatch hget

end Leaves

/-- **The loop ends** with what the search finds. Each round takes a type off the queue, and a type
puts its parents there but once. -/
theorem exists_rounds {seen : List String} (hl : h.Leaves seen unvisited) :
    ∃ n ≤ queue.length + parentCount unvisited,
      h.Rounds s seen queue (search s unvisited queue) n := by
  fun_induction search s unvisited queue generalizing seen with
  | case1 => exact ⟨0, Nat.zero_le _, .done⟩
  | case2 unvisited name rest hget ih =>
    by_cases hseen : name ∈ seen
    · obtain ⟨n, hn, hrounds⟩ := ih hl
      exact ⟨n + 1, by rw [List.length_cons]; omega, .again hseen hrounds⟩
    · obtain ⟨n, hn, hrounds⟩ := ih (hl.cons hget)
      have hnothing := (hl.get?_of_not_mem hseen).trans hget
      exact ⟨n + 1, by rw [List.length_cons]; omega, .unknown hseen hnothing hrounds⟩
  | case3 unvisited name rest known hget hmem =>
    have hnew := hl.not_mem_of_get? hget
    have hknown := (hl.get?_of_not_mem hnew).trans hget
    exact ⟨1, by rw [List.length_cons]; omega, .found hnew hknown hmem⟩
  | case4 unvisited name rest known hget hmem ih =>
    have hnew := hl.not_mem_of_get? hget
    have hknown := (hl.get?_of_not_mem hnew).trans hget
    have hcount := parentCount_erase hget
    obtain ⟨n, hn, hrounds⟩ := ih (hl.erase name)
    rw [List.length_append] at hn
    exact ⟨n + 1, by rw [List.length_cons]; omega, .visit hnew hknown hmem hrounds⟩

/-! ### Insertions in any order -/

theorem Insertion.exists_of_perm {is' : List Insertion} (hp : is.Perm is')
    {P : Insertion → Prop} (he : ∃ i ∈ is, P i) : ∃ i ∈ is', P i := by
  obtain ⟨i, hi, hP⟩ := he
  exact ⟨i, hp.mem_iff.mp hi, hP⟩

/-- Some type that is reached from the given ones gets the signature. -/
def Insertion.Declared (is : List Insertion) (starts : List String) (s : Signature) : Prop :=
  ∃ a, Insertion.AddsSignature is a s ∧ Reachable (Insertion.AddsParent is) starts a

theorem Insertion.Declared.perm {is' : List Insertion} (hp : is.Perm is') {starts : List String}
    (hd : Insertion.Declared is starts s) : Insertion.Declared is' starts s := by
  obtain ⟨a, hsig, hr⟩ := hd
  exact ⟨a, exists_of_perm hp hsig,
    hr.mono (fun x hx => .start hx) fun _ _ => exists_of_perm hp⟩

theorem hasParent_ofInsertions (is : List Insertion) :
    (ofInsertions is).HasParent = Insertion.AddsParent is := by
  funext child parent
  exact propext mem_parents_ofInsertions

theorem declaring?_ofInsertions_eq_none_iff {starts : List String} :
    (ofInsertions is).declaring? starts s = none ↔ ¬ Insertion.Declared is starts s := by
  rw [declaring?_eq_none_iff, hasParent_ofInsertions]
  simp only [mem_signatures_ofInsertions, and_comm, Insertion.Declared]

/-- **The search for ancestors is exact.** After any insertions, the loop ends within as many rounds
as there are types in the queue and recorded parents; what it finds has the signature and is reached
from the queue; it finds nothing exactly if there is no such type; and whether it finds something
does not depend on the order of the insertions. -/
theorem declaring?_exact (is : List Insertion) (starts : List String) (s : Signature) :
    (∃ n ≤ starts.length + parentCount (ofInsertions is).types,
      (ofInsertions is).Rounds s [] starts ((ofInsertions is).declaring? starts s) n) ∧
    (∀ a, (ofInsertions is).declaring? starts s = some a →
      Insertion.AddsSignature is a s ∧ Reachable (Insertion.AddsParent is) starts a) ∧
    ((ofInsertions is).declaring? starts s = none ↔
      ¬ ∃ a, Insertion.AddsSignature is a s ∧ Reachable (Insertion.AddsParent is) starts a) ∧
    ∀ is', is.Perm is' → ((ofInsertions is').declaring? starts s).isSome =
      ((ofInsertions is).declaring? starts s).isSome := by
  refine ⟨?_, fun a ha => ?_, declaring?_ofInsertions_eq_none_iff, fun is' hperm => ?_⟩
  · exact exists_rounds fun type => by simp
  · obtain ⟨hsig, hr⟩ := sound_search ha
    exact ⟨mem_signatures_ofInsertions.mp hsig, hasParent_ofInsertions is ▸ hr⟩
  · have hnone : (ofInsertions is').declaring? starts s = none ↔
        (ofInsertions is).declaring? starts s = none := by
      rw [declaring?_ofInsertions_eq_none_iff, declaring?_ofInsertions_eq_none_iff]
      exact not_congr ⟨.perm hperm.symm, .perm hperm⟩
    rw [Bool.eq_iff_iff, Option.isSome_iff_ne_none, Option.isSome_iff_ne_none]
    exact not_congr hnone

/-- A circle of two types, one of them inserted twice, with a capability that is nowhere declared;
the second insertion adds the parent that has the signature. -/
def shapeInsertions : List Insertion := [
  .decl { name := "Square", bases := ["Round"], capabilities := .ofList ["Printable"] },
  .decl { name := "Round", bases := ["Square"] },
  .signature "Shape" ⟨"Area", ["int"]⟩,
  .decl { name := "Round", bases := ["Shape"] }]

theorem declaring?_exact_shape :
    ((ofInsertions shapeInsertions).declaring? ["Missing", "Square"] ⟨"Area", ["int"]⟩ =
        some "Shape" ∧
      Insertion.AddsSignature shapeInsertions "Shape" ⟨"Area", ["int"]⟩ ∧
      Reachable (Insertion.AddsParent shapeInsertions) ["Missing", "Square"] "Shape") ∧
    (shapeInsertions.Perm shapeInsertions.reverse ∧
      ((ofInsertions shapeInsertions.reverse).declaring? ["Missing", "Square"]
        ⟨"Area", ["int"]⟩).isSome = true) ∧
    (ofInsertions shapeInsertions).declaring? ["Missing", "Square"] ⟨"Area", []⟩ = none ∧
    ¬ ∃ a, Insertion.AddsSignature shapeInsertions a ⟨"Area", []⟩ ∧
      Reachable (Insertion.AddsParent shapeInsertions) ["Missing", "Square"] a := by
  have hfound : (ofInsertions shapeInsertions).declaring? ["Missing", "Square"]
      ⟨"Area", ["int"]⟩ = some "Shape" := by
    -- Round by round: nothing is known of the first type, nor of the second when it comes again.
    refine (search_of_unknown rfl _).trans ((search_of_not_mem rfl (by decide) _).trans ?_)
    refine (search_of_not_mem rfl (by decide) _).trans ((search_of_unknown rfl _).trans ?_)
    exact (search_of_unknown rfl _).trans (search_of_mem rfl (by decide) _)
  have hmissed : (ofInsertions shapeInsertions).declaring? ["Missing", "Square"]
      ⟨"Area", []⟩ = none := by
    refine (search_of_unknown rfl _).trans ((search_of_not_mem rfl (by decide) _).trans ?_)
    refine (search_of_not_mem rfl (by decide) _).trans ((search_of_unknown rfl _).trans ?_)
    exact (search_of_unknown rfl _).trans ((search_of_not_mem rfl (by decide) _).trans search_nil)
  have hperm := shapeInsertions.reverse_perm.symm
  obtain ⟨-, hsound, -, horder⟩ :=
    declaring?_exact shapeInsertions ["Missing", "Square"] ⟨"Area", ["int"]⟩
  obtain ⟨-, -, hcomplete, -⟩ :=
    declaring?_exact shapeInsertions ["Missing", "Square"] ⟨"Area", []⟩
  refine ⟨⟨hfound, hsound "Shape" hfound⟩, ⟨hperm, ?_⟩, hmissed, hcomplete.mp hmissed⟩
  rw [horder _ hperm, hfound]
  rfl

end Hierarchy

end ClassIdiom
