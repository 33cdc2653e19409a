import ClassIdiom.Proofs.KnownTypes

/-! # The declarations of a batch do not depend on each other

A batch hands two things to the conversion of each of its declarations: the names of all, as known
types, and a hierarchy made of all. The hierarchy does not show, and of the names only the set
matters. So what comes out for a declaration is what comes out for it alone with the same names
known (`results_eq_map`), whatever else the other declarations say and whether they fail or not. -/

namespace ClassIdiom.Batch

/-- Two batches have the same set of names. -/
def SameNames (decls decls' : List Decl) : Prop :=
  ∀ name, name ∈ decls.map (·.name) ↔ name ∈ decls'.map (·.name)

/-- **The results of a batch**, one for each declaration and in order, are those of the declarations
alone with the names of the batch known. -/
theorem results_eq_map (p : Profile) {decls : List Decl} {names : List String}
    (h : ∀ name, name ∈ names ↔ name ∈ decls.map (·.name)) :
    (convert p decls).results =
      decls.map fun d => (Converter.convert { profile := p, known := names } d).result := by
  refine List.map_congr_left fun d _ => ?_
  have hcovers : ∀ own, (TypeNames.of p (names ++ own)).Covers (fun _ => False)
      (TypeNames.of p (decls.map (·.name) ++ own)) := by
    intro own
    refine TypeNames.covers_of_mem_iff fun name => ?_
    rw [List.mem_append, List.mem_append, h name]
  exact (Converter.sameUnless_convert hcovers none (some (Hierarchy.ofDecls decls)) d).eq_of_never

/-! ### Orders -/

/-- The elements of a list in another order, given by their places. -/
def reordered {α : Type} (order : List Nat) (l : List α) : List α := order.filterMap (l[·]?)

theorem mem_reordered_iff {α : Type} {order : List Nat} {l : List α}
    (h : order.Perm (List.range l.length)) {a : α} : a ∈ reordered order l ↔ a ∈ l := by
  unfold reordered
  rw [List.mem_filterMap, List.mem_iff_getElem?]
  constructor
  · rintro ⟨i, -, hi⟩
    exact ⟨i, hi⟩
  · rintro ⟨i, hi⟩
    obtain ⟨hlt, -⟩ := List.getElem?_eq_some_iff.mp hi
    exact ⟨i, h.mem_iff.mpr (List.mem_range.mpr hlt), hi⟩

theorem map_reordered {α β : Type} (f : α → β) (order : List Nat) (l : List α) :
    (reordered order l).map f = reordered order (l.map f) := by
  unfold reordered
  rw [List.map_filterMap]
  simp only [List.getElem?_map]

theorem sameNames_reordered {order : List Nat} {decls : List Decl}
    (h : order.Perm (List.range decls.length)) : SameNames decls (reordered order decls) := by
  intro name
  simp only [List.mem_map, mem_reordered_iff h]

/-- **A batch isolates its declarations.** There is one result for each, in order, and it is what
the declaration alone gives with the names of the batch known. A declaration has the same result in
every batch with the same set of names, wherever it stands there, and a batch in another order has
the results in that order. -/
theorem results_isolated (p : Profile) (decls : List Decl) :
    (convert p decls).results.length = decls.length ∧
    (∀ (i : Nat) (d : Decl), decls[i]? = some d → (convert p decls).results[i]? =
      some (Converter.convert { profile := p, known := decls.map (·.name) } d).result) ∧
    (∀ decls', SameNames decls decls' → ∀ (i j : Nat) (d : Decl),
      decls[i]? = some d → decls'[j]? = some d →
        (convert p decls').results[j]? = (convert p decls).results[i]?) ∧
    ∀ order, order.Perm (List.range decls.length) →
      (convert p (reordered order decls)).results = reordered order (convert p decls).results := by
  have hresults := results_eq_map p fun name => Iff.refl (name ∈ decls.map (·.name))
  refine ⟨?_, ?_, ?_, ?_⟩
  · rw [hresults, List.length_map]
  · intro i d hi
    rw [hresults, List.getElem?_map, hi]
    rfl
  · intro decls' hnames i j d hi hj
    rw [results_eq_map p hnames, hresults, List.getElem?_map, List.getElem?_map, hi, hj]
  · intro order horder
    rw [results_eq_map p (sameNames_reordered horder), hresults, map_reordered]

/-- A batch of two classes, one of which mentions the other. -/
def shopBatch : List Decl := [Converter.customerDecl, Converter.orderDecl]

/-- A batch with the same names, one of them twice, in which all but one of the classes fail. -/
def brokenShopBatch : List Decl :=
  [Converter.tangledDecl, Converter.customerDecl, Converter.tangledDecl]

theorem results_isolated_shopBatch :
    SameNames shopBatch brokenShopBatch ∧
    (convert .python brokenShopBatch).results[1]? = (convert .python shopBatch).results[0]? ∧
    [1, 0].Perm (List.range shopBatch.length) ∧
    (convert .python [Converter.orderDecl, Converter.customerDecl]).results =
      reordered [1, 0] (convert .python shopBatch).results := by
  have hisolated := results_isolated .python shopBatch
  have hnames : SameNames shopBatch brokenShopBatch := by
    intro name
    change name ∈ ["Customer", "Order"] ↔ name ∈ ["Order", "Customer", "Order"]
    grind
  have horder : [1, 0].Perm (List.range shopBatch.length) := by decide
  exact ⟨hnames, hisolated.2.2.1 _ hnames 0 1 Converter.customerDecl rfl rfl, horder,
    hisolated.2.2.2 [1, 0] horder⟩

end ClassIdiom.Batch
