import ClassIdiom.Decl.Printer
import ClassIdiom.Decl.Reader
import ClassIdiom.Proofs.JsonText
import ClassIdiom.Proofs.Records

/-! # Declarations are read back

A declaration is written as a JSON object with all its fields, and so are its parts. Each part is
shown to be read back from what it is written as, from parameters and accessors up to the
declaration. A member has one flat object for two readers: its modifiers are read as they come, the
rest by the reader of its kind, so it matters that no key belongs to both
(`MemberKind.not_mem_keys`). `Decl.parse_print` adds the text: a declaration has no numbers and
nests five levels deep, which is less than a text may. -/

namespace ClassIdiom

open Reader Shape

/-! ### Parts of a member -/

theorem Parameter.undoes_read : shape.read.Undoes toJson := by
  intro p
  have hname := gives_required "name" (undoes_string p.name)
  have htype := gives_required "type" (undoes_string p.type)
  exact ((hname.map mk).seq htype).readEntries (by decide)

theorem Accessor.undoes_read : shape.read.Undoes toJson := by
  intro a
  have hvisibility := gives_optional "visibility" none
    ((undoes_lateWord Visibility.ofKey?_key).nullable nofun a.visibility)
  exact (hvisibility.map mk).readEntries (by decide)

namespace MemberKind

theorem gives_field (f : Field) : Field.shape.Gives (toEntries (.field f)) f := by
  have htype := gives_required "type" (undoes_string f.type)
  have hinitial := gives_optional "default" none (undoes_string.nullable nofun f.initial)
  have hmutability := gives_optional "mutability" .mutable
    (undoes_lateWord Mutability.ofSpelling?_spelling f.mutability)
  exact ((htype.map Field.mk).seq hinitial).seq hmutability

theorem gives_property (p : Property) : Property.shape.Gives (toEntries (.property p)) p := by
  have htype := gives_required "type" (undoes_string p.type)
  have hgetter := gives_optional "getter" {} (Accessor.undoes_read p.getter)
  have hsetter := gives_optional "setter" none (Accessor.undoes_read.nullable nofun p.setter)
  have hinitial := gives_optional "default" none (undoes_string.nullable nofun p.initial)
  exact (((htype.map Property.mk).seq hgetter).seq hsetter).seq hinitial

theorem gives_method (m : Method) : Method.shape.Gives (toEntries (.method m)) m := by
  have hresult := gives_optional "returnType" voidType (undoes_string m.result)
  have hparams := gives_optional "params" [] (Parameter.undoes_read.list m.params)
  have hbody := gives_optional "body" [] (undoes_string.list m.body)
  exact ((hresult.map Method.mk).seq hparams).seq hbody

theorem gives_constructor (c : Constructor) :
    Constructor.shape.Gives (toEntries (.constructor c)) c := by
  have hparams := gives_optional "params" [] (Parameter.undoes_read.list c.params)
  have hbody := gives_optional "body" [] (undoes_string.list c.body)
  exact (hparams.map Constructor.mk).seq hbody

/-- The entries of a record are read by the reader of the kind that the tag names. -/
theorem readEntries_of_gives {α : Type} {s : Shape α} {entries : List (String × Json)} {a : α}
    {kind : α → MemberKind} {word : String}
    (htag : readTag (.str word) = .ok fun entries => (s.readEntries entries).map kind)
    (h : s.Gives entries a) (hkeys : ("kind" :: s.keys).Nodup) :
    readEntries (("kind", .str word) :: entries) = .ok (kind a) := by
  obtain ⟨hkind, hnodup⟩ := List.nodup_cons.mp hkeys
  have hother : ∀ e ∈ entries, e.1 ≠ "kind" := fun e he hek => hkind (hek ▸ h.mem_keys he)
  have hnone : entries.filter (·.1 == "kind") = [] :=
    List.filter_eq_nil_iff.mpr fun e he => by simpa using hother e he
  have hall : entries.filter (·.1 != "kind") = entries :=
    List.filter_eq_self.mpr fun e he => by simpa using hother e he
  rw [readEntries, List.filter_cons_of_pos (by simp), hnone, List.filter_cons_of_neg (by simp),
    hall]
  simp only [htag]
  show (s.readEntries entries).map kind = .ok (kind a)
  rw [h.readEntries hnodup]
  rfl

/-- **What is particular to a kind** is read back from its entries and the word for the kind. -/
theorem readEntries_toEntries (k : MemberKind) :
    readEntries (("kind", .str k.word) :: k.toEntries) = .ok k := by
  cases k with
  | field f => exact readEntries_of_gives rfl (gives_field f) (by decide)
  | property p => exact readEntries_of_gives rfl (gives_property p) (by decide)
  | method m => exact readEntries_of_gives rfl (gives_method m) (by decide)
  | constructor c => exact readEntries_of_gives rfl (gives_constructor c) (by decide)

/-- What is particular to a kind has no key in common with what all members have. -/
theorem not_mem_keys (k : MemberKind) :
    ∀ key ∈ "kind" :: k.toEntries.map Prod.fst, key ∉ Member.shape.keys := by
  have hall : ∀ key ∈ ["kind", "type", "default", "mutability", "getter", "setter", "returnType",
      "params", "body"], key ∉ Member.shape.keys := by decide
  intro key hkey
  refine hall key ?_
  cases k <;> simp only [toEntries, List.map_cons, List.map_nil, List.mem_cons] at hkey ⊢ <;> tauto

end MemberKind

/-! ### Members -/

namespace Member

/-- The entries that all members have, short of the kind. -/
def commonEntries (m : Member) : List (String × Json) := [
  ("name", .str m.name), ("visibility", .str m.visibility.key), ("static", .bool m.isStatic),
  ("override", .bool m.isOverride), ("special", .opt (fun s => .str s.spelling) m.special)]

theorem toJson_eq (m : Member) :
    m.toJson = .obj (m.commonEntries ++ ("kind", .str m.kind.word) :: m.kind.toEntries) := rfl

theorem gives_commonEntries (m : Member) :
    shape.Gives m.commonEntries
      (Member.mk m.name m.visibility m.isStatic m.isOverride m.special) := by
  have hname := gives_required "name" (undoes_string m.name)
  have hvisibility := gives_optional "visibility" .priv
    (undoes_word Visibility.ofKey?_key m.visibility)
  have hstatic := gives_optional "static" false (undoes_bool m.isStatic)
  have hoverride := gives_optional "override" false (undoes_bool m.isOverride)
  have hspecial := gives_optional "special" none
    ((undoes_word Special.ofSpelling?_spelling).nullable nofun m.special)
  exact ((((hname.map Member.mk).seq hvisibility).seq hstatic).seq hoverride).seq hspecial

/-- **A member is read back**: each entry goes to the reader that it was written for. -/
theorem undoes_read : read.Undoes toJson := by
  intro m
  have hgives := m.gives_commonEntries
  have hcommon : ∀ e ∈ m.commonEntries, e.1 ∈ shape.keys := fun e he => hgives.mem_keys he
  have hrest : ∀ e ∈ ("kind", Json.str m.kind.word) :: m.kind.toEntries, e.1 ∉ shape.keys :=
    fun e he => m.kind.not_mem_keys e.1 (List.mem_map_of_mem he)
  rw [toJson_eq, read, List.filter_append, List.filter_append,
    List.filter_eq_self.mpr (by simpa using hcommon),
    List.filter_eq_nil_iff.mpr (by simpa using hrest),
    List.filter_eq_nil_iff.mpr (by simpa using hcommon),
    List.filter_eq_self.mpr (by simpa using hrest), List.append_nil, List.nil_append,
    hgives.readEntries (by decide), MemberKind.readEntries_toEntries]
  rfl

end Member

/-! ### Declarations -/

namespace OrderedSet

variable {α : Type} [DecidableEq α]

theorem toList_insertAll {s : OrderedSet α} {l : List α} (h : (s.toList ++ l).Nodup) :
    (s.insertAll l).toList = s.toList ++ l := by
  unfold insertAll
  induction l generalizing s with
  | nil => simp
  | cons a l ih =>
    have hnew : a ∉ s.toList := fun hmem =>
      (List.nodup_append.mp h).2.2 a hmem a List.mem_cons_self rfl
    have hinsert : (s.insert a).toList = s.toList ++ [a] := by
      unfold insert
      rw [dif_neg hnew]
    have happend : (s.insert a).toList ++ l = s.toList ++ a :: l := by simp [hinsert]
    rw [List.foldl_cons, ih (happend ▸ h), happend]

theorem ofList_toList (s : OrderedSet α) : ofList s.toList = s := by
  have h : (ofList s.toList).toList = s.toList :=
    toList_insertAll (s := empty) (by simpa [empty] using s.distinct)
  generalize ofList s.toList = t at h
  obtain ⟨l, hl⟩ := s
  obtain ⟨l', hl'⟩ := t
  obtain rfl : l' = l := h
  rfl

end OrderedSet

theorem Decl.undoes_read : shape.read.Undoes toJson := by
  intro d
  have hset : OrderedSet.ofList <$> list string (.strs d.capabilities.toList) =
      .ok d.capabilities := by
    have hlist : list string (.strs d.capabilities.toList) = .ok d.capabilities.toList :=
      undoes_string.list d.capabilities.toList
    rw [hlist]
    exact congrArg Except.ok d.capabilities.ofList_toList
  have hname := gives_required "name" (undoes_string d.name)
  have hvisibility := gives_optional "visibility" .pub
    (undoes_word Visibility.ofKey?_key d.visibility)
  have hspecial := gives_optional "special" none
    ((undoes_word Special.ofSpelling?_spelling).nullable nofun d.special)
  have hcontainer := gives_optional "container" none (undoes_string.nullable nofun d.container)
  have himports := gives_optional "imports" [] (undoes_string.list d.imports)
  have hbases := gives_optional "baseTypes" [] (undoes_string.list d.bases)
  have hcapabilities : (optional "capabilities" (OrderedSet.ofList <$> list string ·) {}).Gives
    _ _ := gives_optional "capabilities" {} hset
  have hmembers := gives_optional "members" [] (Member.undoes_read.list d.members)
  have hgives := (((((((hname.map mk).seq hvisibility).seq hspecial).seq hcontainer).seq
    himports).seq hbases).seq hcapabilities).seq hmembers
  exact hgives.readEntries (by decide)

/-! ### Text -/

section Fits

open Json

theorem fits_opt {α : Type} {n : Nat} {write : α → Json} (h : ∀ a, Fits n (write a))
    (o : Option α) : Fits n (.opt write o) := by
  cases o with
  | none => exact .null
  | some a => exact h a

theorem fits_map {α : Type} {n : Nat} {write : α → Json} (h : ∀ a, Fits n (write a))
    (l : List α) : Fits (n + 1) (.arr (l.map write)) := by
  refine .arr fun v hv => ?_
  obtain ⟨a, -, rfl⟩ := List.mem_map.mp hv
  exact h a

theorem Parameter.fits_toJson (p : Parameter) : Fits 1 p.toJson :=
  .obj (by simp [Fits.str])

theorem Accessor.fits_toJson {n : Nat} (a : Accessor) : Fits (n + 1) a.toJson :=
  .obj (by simpa using fits_opt (fun v => .str v.key) a.visibility)

theorem MemberKind.fits_toEntries (k : MemberKind) : ∀ e ∈ k.toEntries, Fits 2 e.2 := by
  cases k with
  | field f =>
    simp only [toEntries, List.forall_mem_cons]
    exact ⟨.str _, fits_opt .str _, .str _, nofun⟩
  | property p =>
    simp only [toEntries, List.forall_mem_cons]
    exact ⟨.str _, p.getter.fits_toJson, fits_opt (fun a => a.fits_toJson) _, fits_opt .str _,
      nofun⟩
  | method m =>
    simp only [toEntries, List.forall_mem_cons]
    exact ⟨.str _, fits_map Parameter.fits_toJson _, fits_map .str _, nofun⟩
  | constructor c =>
    simp only [toEntries, List.forall_mem_cons]
    exact ⟨fits_map Parameter.fits_toJson _, fits_map .str _, nofun⟩

theorem Member.fits_commonEntries {n : Nat} (m : Member) : ∀ e ∈ m.commonEntries, Fits n e.2 := by
  simp only [commonEntries, List.forall_mem_cons]
  exact ⟨.str _, .str _, .bool _, .bool _, fits_opt (fun s => .str (Special.spelling s)) _, nofun⟩

theorem Member.fits_toJson (m : Member) : Fits 3 m.toJson := by
  rw [toJson_eq]
  refine .obj fun e he => ?_
  rcases List.mem_append.mp he with he | he
  · exact m.fits_commonEntries e he
  · rcases List.mem_cons.mp he with rfl | he
    · exact .str _
    · exact m.kind.fits_toEntries e he

/-- A declaration nests five levels deep, down to the parameters of its members. -/
theorem Decl.fits_toJson (d : Decl) : Fits 5 d.toJson := by
  refine .obj ?_
  simp only [List.forall_mem_cons]
  exact ⟨.str _, .str _, fits_opt (fun s => .str (Special.spelling s)) _, fits_opt .str _,
    fits_map .str _, fits_map .str _, fits_map .str _, fits_map Member.fits_toJson _, nofun⟩

end Fits

/-- **Reading undoes writing.** The text of a declaration is that of a JSON object with all its
fields, and what is read from it is the declaration that was written. -/
theorem Decl.parse_print (d : Decl) :
    Json.parse? d.print = some d.toJson ∧ parse d.print = .ok d := by
  have htext : Json.parse? d.print = some d.toJson :=
    Json.parse?_compress d.fits_toJson (by decide)
  refine ⟨htext, ?_⟩
  rw [parse, htext]
  exact undoes_read d

end ClassIdiom
