import ClassIdiom.Batch
import ClassIdiom.Proofs.Overlays
import ClassIdiom.Proofs.OverrideSources

/-! # More known types

Known types are asked for in one place only: a type that has no spelling otherwise is spelled alike
if it is known. With more of them a conversion can but get further: what it wrote it writes again,
and only a failure for an unknown type can go away.

`SameUnless P r r'` says that two answers are the same unless the first is a failure of the kind
`P`. It goes through everything that is done on the way to the text, so one pass over the layout
serves both for more known types, with `P` the failures for an unknown type, and for others that are
as good, with no exception at all. -/

namespace ClassIdiom

/-! ### Answers that are the same -/

/-- The second answer is the first, unless the first is a failure of the given kind. -/
def SameUnless {ε α : Type} (P : ε → Prop) (r r' : Except ε α) : Prop :=
  r' = r ∨ ∃ e, r = .error e ∧ P e

namespace SameUnless

variable {ε ε' α β : Type} {P : ε → Prop} {r r' : Except ε α}

theorem refl (r : Except ε α) : SameUnless P r r := Or.inl rfl

theorem eq_ok {a : α} (h : SameUnless P (.ok a) r') : r' = .ok a := by
  rcases h with h | ⟨e, he, -⟩
  · exact h
  · exact nomatch he

theorem eq_error {e : ε} (h : SameUnless P (.error e : Except ε α) r') (hP : ¬ P e) :
    r' = .error e := by
  rcases h with h | ⟨e', he, hP'⟩
  · exact h
  · obtain rfl := Except.error.inj he
    exact absurd hP' hP

/-- Without exceptions the answers are equal. -/
theorem eq_of_never (h : SameUnless (fun _ => False) r r') : r' = r := by
  rcases h with h | ⟨e, -, hP⟩
  · exact h
  · exact hP.elim

theorem bind {f f' : α → Except ε β} (h : SameUnless P r r')
    (hf : ∀ a, SameUnless P (f a) (f' a)) : SameUnless P (r >>= f) (r' >>= f') := by
  rcases h with rfl | ⟨e, rfl, hP⟩
  · cases r' with
    | ok a => exact hf a
    | error e => exact refl _
  · exact Or.inr ⟨e, rfl, hP⟩

theorem map (f : α → β) (h : SameUnless P r r') : SameUnless P (r.map f) (r'.map f) := by
  rcases h with rfl | ⟨e, rfl, hP⟩
  · exact refl _
  · exact Or.inr ⟨e, rfl, hP⟩

theorem mapError {Q : ε' → Prop} {g : ε → ε'} (h : SameUnless P r r') (hg : ∀ e, P e → Q (g e)) :
    SameUnless Q (r.mapError g) (r'.mapError g) := by
  rcases h with rfl | ⟨e, rfl, hP⟩
  · exact refl _
  · exact Or.inr ⟨g e, rfl, hg e hP⟩

theorem mapM {f f' : α → Except ε β} (h : ∀ a, SameUnless P (f a) (f' a)) (l : List α) :
    SameUnless P (l.mapM f) (l.mapM f') := by
  induction l with
  | nil => exact refl _
  | cons a l ih =>
    rw [List.mapM_cons, List.mapM_cons]
    exact (h a).bind fun b => ih.bind fun bs => refl _

end SameUnless

/-! ### Spellings -/

theorem append_subset_append {known known' : List String} (h : known ⊆ known')
    (own : List String) : known ++ own ⊆ known' ++ own :=
  List.append_subset.mpr
    ⟨List.subset_append_of_subset_left own h, List.subset_append_right known' own⟩

/-- The failure is due to a type without a spelling. -/
def Failure.IsUnknownType (f : Failure) : Prop := ∃ type, f.cause = .unknownType type

/-- One way to spell types has all the spellings of another one, which else fails as `P` allows.
What a constructor returns is spelled on its own, and must not change. -/
structure TypeNames.Covers (P : Failure → Prop) (t t' : TypeNames) : Prop where
  void : t'.spell voidType = t.spell voidType
  spell : ∀ type, t'.spell type = t.spell type ∨
    t.spell type = none ∧ ∀ typeName member, P ⟨typeName, member, .unknownType type⟩

namespace TypeNames

variable {p : Profile} {known known' : List String}

theorem spellLayers_of_table {t : TypeNames} {type s : String} (inner : List String)
    (h : t.table.get? type = some s) : t.spellLayers (type :: inner) = some s := by
  unfold spellLayers
  rw [h]

/-- A type that has a spelling keeps it when more types are known. -/
theorem spellLayers_mono (h : known ⊆ known') {layers : List String} {s : String}
    (hs : (of p known).spellLayers layers = some s) :
    (of p known').spellLayers layers = some s := by
  induction layers generalizing s with
  | nil => exact nomatch hs
  | cons type inner ih =>
    -- The table goes first, for an array type as a whole too. Only the innermost type can be known.
    cases htype : p.types.get? type with
    | some spelling =>
      rw [spellLayers_of_table inner htype] at hs
      rw [spellLayers_of_table inner htype]
      exact hs
    | none =>
      have hnone : ∀ known, (of p known).table.get? type = none := fun _ => htype
      unfold spellLayers at hs ⊢
      rw [hnone] at hs ⊢
      cases inner with
      | nil =>
        have hmem : type ∈ (of p known).known := by
          by_contra hnot
          simp [hnot] at hs
        have hmem' : type ∈ (of p known').known := append_subset_append h _ hmem
        simp only [hmem, if_true] at hs
        simp only [hmem', if_true]
        exact hs
      | cons element rest =>
        obtain ⟨spelling, hspelling, rfl⟩ := Option.map_eq_some_iff.mp hs
        exact Option.map_eq_some_iff.mpr ⟨spelling, ih hspelling, rfl⟩

theorem spell_mono (h : known ⊆ known') {type s : String}
    (hs : (of p known).spell type = some s) : (of p known').spell type = some s :=
  spellLayers_mono h hs

/-- The spelling by the table does not ask what is known. -/
theorem spell_void (h : p.types.contains voidType = true) :
    (of p known).spell voidType = p.types.get? voidType := by
  obtain ⟨spelling, hs⟩ := Option.isSome_iff_exists.mp h
  have hlayers : layers voidType = [voidType] := by decide
  unfold spell
  rw [hlayers, hs]
  exact spellLayers_of_table [] hs

/-- More known types cover fewer, if the table has a spelling for what returns nothing. -/
theorem covers_of_subset (hvoid : p.types.contains voidType = true) (h : known ⊆ known') :
    Covers Failure.IsUnknownType (of p known) (of p known') where
  void := by rw [spell_void hvoid, spell_void hvoid]
  spell type := by
    cases hs : (of p known).spell type with
    | some s => exact Or.inl (spell_mono h hs)
    | none => exact Or.inr ⟨rfl, fun typeName member => ⟨type, rfl⟩⟩

/-- The same known types, in whatever order and number, give the same spellings. -/
theorem spell_congr (h : ∀ name, name ∈ known ↔ name ∈ known') (type : String) :
    (of p known').spell type = (of p known).spell type := by
  refine Option.ext fun s => ⟨spell_mono ?_, spell_mono ?_⟩
  · exact fun name hname => (h name).mpr hname
  · exact fun name hname => (h name).mp hname

theorem covers_of_mem_iff (h : ∀ name, name ∈ known ↔ name ∈ known') :
    Covers (fun _ => False) (of p known) (of p known') where
  void := spell_congr h voidType
  spell type := Or.inl (spell_congr h type)

end TypeNames

/-! ### Text -/

namespace Layout

variable {P : Failure → Prop} {l : Layout} {types : TypeNames}

theorem sameUnless_spell (h : l.types.Covers P types) (member type : String) :
    SameUnless P (l.spell member type) ({ l with types }.spell member type) := by
  unfold spell
  rcases h.spell type with hs | ⟨hs, hP⟩
  · exact Or.inl (by simp only [hs])
  · exact Or.inr ⟨_, by rw [hs], hP _ _⟩

theorem sameUnless_params (h : l.types.Covers P types) (member : String) (withReceiver : Bool)
    (ps : List Parameter) :
    SameUnless P (l.params member withReceiver ps)
      ({ l with types }.params member withReceiver ps) := by
  have hparam : ∀ q, SameUnless P (l.param member q) ({ l with types }.param member q) :=
    fun q => (sameUnless_spell h member q.type).bind fun type => .refl _
  exact (SameUnless.mapM hparam ps).bind fun texts => .refl _

/-- **A member is laid out alike** with types that cover the others. -/
theorem sameUnless_memberLines (h : l.types.Covers P types) (m : FlatMember) :
    SameUnless P (l.memberLines m) ({ l with types }.memberLines m) := by
  cases m with
  | field f => exact (sameUnless_spell h _ f.type).bind fun type => .refl _
  | method x =>
    refine (sameUnless_spell h _ x.result).bind fun result => ?_
    exact (sameUnless_params h _ _ x.params).bind fun params => .refl _
  | constructor c =>
    -- A result without a spelling is left out and is no failure, so `SameUnless` has no say here.
    have hresult : { l with types }.constructorResult = l.constructorResult := by
      unfold constructorResult
      rw [h.void]
    unfold memberLines constructorLines
    simp only [hresult]
    split
    · exact .refl _
    · exact (sameUnless_params h _ _ c.params).bind fun params => .refl _

theorem sameUnless_fileText (h : l.types.Covers P types) (c : Resolved) :
    SameUnless P (l.fileText c) ({ l with types }.fileText c) := by
  have hlines := SameUnless.mapM
    (fun m => sameUnless_memberLines (l := { l with className := c.name }) h m) c.members
  have htext : ∀ lines, { l with className := c.name, types := types }.assemble c lines =
      { l with className := c.name }.assemble c lines := by
    intro lines
    apply assemble_congr
    rfl
  rw [fileText_eq, fileText_eq]
  simp only [htext]
  exact hlines.map _

end Layout

namespace Converter

variable {P : Failure → Prop} {p : Profile} {known known' : List String}

/-- **A conversion** gives the same with known types that cover the others, and with any
hierarchies. -/
theorem sameUnless_convert
    (hc : ∀ own, (TypeNames.of p (known ++ own)).Covers P (TypeNames.of p (known' ++ own)))
    (h h' : Option Hierarchy) (d : Decl) :
    SameUnless (fun f => P f.failure) (convert { profile := p, hierarchy := h, known } d).result
      (convert { profile := p, hierarchy := h', known := known' } d).result := by
  have hemit : ∀ c, SameUnless P (emit { profile := p, hierarchy := h, known } c)
      (emit { profile := p, hierarchy := h', known := known' } c) := by
    intro c
    have htext := Layout.sameUnless_fileText
      (l := ⟨p.style, TypeNames.of p (known ++ c.name :: c.parents), ""⟩)
      (hc (c.name :: c.parents)) c
    exact htext.bind fun text => .refl _
  rw [result_convert_adopted, result_convert_adopted]
  refine (SameUnless.refl _).bind fun m => (SameUnless.refl _).bind fun f => ?_
  split
  · exact (hemit f.adopted).mapError fun e he => he
  · exact .refl _

/-- More known types, where the table spells what returns nothing. -/
theorem sameUnless_convert_of_subset (hvoid : p.types.contains voidType = true)
    (hk : known ⊆ known') (h h' : Option Hierarchy) (d : Decl) :
    SameUnless (fun f => f.failure.IsUnknownType)
      (convert { profile := p, hierarchy := h, known } d).result
      (convert { profile := p, hierarchy := h', known := known' } d).result := by
  refine sameUnless_convert (fun own => ?_) h h' d
  exact TypeNames.covers_of_subset hvoid (append_subset_append hk own)

end Converter

/-! ### Profiles that spell what returns nothing -/

theorem Profile.builtIn_contains_void (target : Target) :
    (builtIn target).types.contains voidType = true := by
  cases target <;> decide

/-- An overlay only adds spellings to those of the target. -/
theorem Overlay.contains_void_of_apply {o : Overlay} {p : Profile} (h : o.apply = .ok p) :
    p.types.contains voidType = true := by
  obtain ⟨target, hadjusts⟩ := adjusts_of_apply h
  have hvoid := Profile.builtIn_contains_void target
  unfold Table.contains at hvoid ⊢
  rw [hadjusts.types]
  show (((Profile.builtIn target).types.insertAll o.typeMap.entries).get? voidType).isSome = true
  rw [Table.get?_insertAll, Option.isSome_or, hvoid, Bool.or_true]

namespace Converter

/-- **More known types change nothing that works.** Where the table spells what returns nothing, as
it does in the built-in profiles and under every overlay, a conversion that succeeds does so with
the same file when more types are known, and one that fails for another reason than an unknown type
fails alike. So a declaration that can be converted on its own gives the same file in a batch. -/
theorem convert_known_monotone :
    (∀ target, (Profile.builtIn target).types.contains voidType = true) ∧
    (∀ (o : Overlay) (p : Profile), o.apply = .ok p → p.types.contains voidType = true) ∧
    ∀ p : Profile, p.types.contains voidType = true → ∀ d : Decl,
      (∀ (known known' : List String) (h h' : Option Hierarchy), known ⊆ known' →
        (∀ file, (convert { profile := p, hierarchy := h, known } d).result = .ok file →
          (convert { profile := p, hierarchy := h', known := known' } d).result = .ok file) ∧
        ∀ f, (convert { profile := p, hierarchy := h, known } d).result = .error f →
          (∀ type, f.failure.cause ≠ .unknownType type) →
          (convert { profile := p, hierarchy := h', known := known' } d).result = .error f) ∧
      ∀ file, d.convert p = .ok file → ∀ (decls : List Decl) (i : Nat), decls[i]? = some d →
        (Batch.convert p decls).results[i]? = some (.ok file) := by
  refine ⟨Profile.builtIn_contains_void, fun o p => Overlay.contains_void_of_apply, ?_⟩
  intro p hvoid d
  refine ⟨fun known known' h h' hk => ⟨fun file hfile => ?_, fun f hf hcause => ?_⟩, ?_⟩
  · have hsame := sameUnless_convert_of_subset hvoid hk h h' d
    rw [hfile] at hsame
    exact hsame.eq_ok
  · have hsame := sameUnless_convert_of_subset hvoid hk h h' d
    rw [hf] at hsame
    exact hsame.eq_error fun ⟨type, htype⟩ => hcause type htype
  · intro file hfile decls i hi
    have hsame := sameUnless_convert_of_subset hvoid (List.nil_subset (decls.map (·.name))) none
      (some (Hierarchy.ofDecls decls)) d
    have hsame' : SameUnless _ (d.convert p) ((Batch.converter p decls).convert d).result := hsame
    rw [hfile] at hsame'
    simp only [Batch.convert, List.getElem?_map, hi, Option.map_some, hsame'.eq_ok]

/-- A class that mentions another one, with a constructor. -/
def orderDecl : Decl where
  name := "Order"
  members := [
    { name := "customers", kind := .field { type := "Customer[]" } },
    { name := "Order", visibility := .pub, kind := .constructor {} }]

/-- A class with several bases, which mentions a type that is not known. -/
def tangledDecl : Decl := { orderDecl with bases := ["Invoice", "Receipt"] }

/-- A class that mentions no other one. -/
def customerDecl : Decl where
  name := "Customer"
  members := [{ name := "Name", visibility := .pub, kind := .property { type := "string" } }]

theorem convert_known_monotone_order :
    (∃ file, (convert { profile := .python, known := ["Customer"] } orderDecl).result = .ok file ∧
      (convert { profile := .python, hierarchy := some {}, known := ["void", "Customer"] }
        orderDecl).result = .ok file) ∧
    (∃ f, (convert { profile := .python } tangledDecl).result = .error f ∧
      (convert { profile := .python, known := ["Customer"] } tangledDecl).result = .error f) ∧
    ∃ file, customerDecl.convert .python = .ok file ∧
      (Batch.convert .python [orderDecl, customerDecl]).results[1]? = some (.ok file) := by
  obtain ⟨hbuiltIn, -, hmono⟩ := convert_known_monotone
  have hpython := hmono .python (hbuiltIn .python)
  -- All members can be laid out; the texts of the files are of no concern here.
  obtain ⟨order, horder⟩ : ∃ file,
      (convert { profile := .python, known := ["Customer"] } orderDecl).result = .ok file := by
    simp only [result_convert_adopted, emit, Layout.fileText_eq]
    exact ⟨_, rfl⟩
  obtain ⟨customer, hcustomer⟩ : ∃ file, customerDecl.convert .python = .ok file := by
    simp only [Decl.convert, result_convert_adopted, emit, Layout.fileText_eq]
    exact ⟨_, rfl⟩
  refine ⟨⟨order, horder, ?_⟩, ⟨_, rfl, ?_⟩, ⟨customer, hcustomer, ?_⟩⟩
  · exact ((hpython orderDecl).1 _ _ none (some {}) (by simp)).1 order horder
  · exact ((hpython tangledDecl).1 [] _ none none (by simp)).2 _ rfl nofun
  · exact (hpython customerDecl).2 customer hcustomer [orderDecl, customerDecl] 1 rfl

end Converter

end ClassIdiom
