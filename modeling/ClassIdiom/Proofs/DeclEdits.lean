import Mathlib.Logic.Relation
import ClassIdiom.Decl.Reader
import ClassIdiom.Proofs.JsonText
import ClassIdiom.Proofs.RecordEdits

/-! # Edited declarations

A declaration is made of objects: its own, those of its members, and in these the objects of
accessors and parameters. Each of them may have its entries in any order, and may lack entries with
default values, and the declaration is the same (`Decl.Recast`); none may have an entry that it does
not define, also not one that another kind of member defines (`Decl.Gains`). An edit of one object,
wherever it stands, is `Decl.Edited`, and `Decl.parse_edited` says what becomes of the declaration.

A member is one object for two readers, and each looks at its own entries. So an edit is followed
through `Member.commonOf`, which has the entries that all members have, and `Member.particularOf`,
which has those that are read once the kind is known. -/

namespace ClassIdiom

open Reader Shape

/-- The keys of what is particular to a kind. -/
def MemberKind.keys : MemberKind → List String
  | field _ => ["type", "default", "mutability"]
  | property _ => ["type", "getter", "setter", "default"]
  | method _ => ["returnType", "params", "body"]
  | constructor _ => ["params", "body"]

/-! ### Edits -/

namespace Decl

/-- The objects that a declaration is made of. -/
inductive Part where
  | declaration
  | member
  | accessor
  | parameter

namespace Part

/-- **The keys that an object defines.** A member defines those of its kind and no others. -/
def keys : Part → List (String × Json) → List String
  | declaration, _ => ["name", "visibility", "special", "container", "imports", "baseTypes",
      "capabilities", "members"]
  | member, entries => ["name", "visibility", "static", "override", "special", "kind"] ++
      match Member.read (.obj entries) with
      | .ok m => m.kind.keys
      | .error _ => []
  | accessor, _ => ["visibility"]
  | parameter, _ => ["name", "type"]

/-- **The value under a key is its default.** A type is public by default, a member is private. -/
def HasDefault : Part → String → Json → Prop
  | declaration, key, v =>
    key = "visibility" ∧ word Visibility.ofKey? v = .ok .pub ∨
    key ∈ ["special", "container"] ∧ v = .null ∨
    key ∈ ["imports", "baseTypes", "capabilities", "members"] ∧ v = .arr []
  | member, key, v =>
    key = "visibility" ∧ word Visibility.ofKey? v = .ok .priv ∨
    key ∈ ["static", "override"] ∧ v = .bool false ∨
    key ∈ ["special", "default", "setter"] ∧ v = .null ∨
    key = "mutability" ∧ lateWord Mutability.ofSpelling? v = .ok .mutable ∨
    key = "getter" ∧ Accessor.shape.read v = .ok {} ∨
    key = "returnType" ∧ v = .str "void" ∨
    key ∈ ["params", "body"] ∧ v = .arr []
  | accessor, key, v => key = "visibility" ∧ v = .null
  | parameter, _, _ => False

end Part

/-- **The entries of an object are recast**: they stand in another order, or one with a default
value is left out. -/
inductive Recast : Part → List (String × Json) → List (String × Json) → Prop
  | reordered {part entries entries'} (h : entries.Perm entries') : Recast part entries entries'
  | shortened {part key v} (front back) (h : part.HasDefault key v) :
    Recast part (front ++ (key, v) :: back) (front ++ back)

/-- **The entries of an object gain one** that it does not define. -/
inductive Gains (key : String) : Part → List (String × Json) → List (String × Json) → Prop
  | mk {part} (v front back) (h : key ∉ part.keys (front ++ back)) :
    Gains key part (front ++ back) (front ++ (key, v) :: back)

/-- An object of a member is edited: its own, that of an accessor, or that of a parameter. -/
inductive MemberEdited (R : Part → List (String × Json) → List (String × Json) → Prop) :
    List (String × Json) → List (String × Json) → Prop
  | here {entries entries'} (h : R .member entries entries') : MemberEdited R entries entries'
  | accessor {key entries entries'} (front back) (hkey : key ∈ ["getter", "setter"])
    (h : R .accessor entries entries') :
    MemberEdited R (front ++ (key, .obj entries) :: back) (front ++ (key, .obj entries') :: back)
  | parameter {entries entries'} (items items' front back) (h : R .parameter entries entries') :
    MemberEdited R (front ++ ("params", .arr (items ++ .obj entries :: items')) :: back)
      (front ++ ("params", .arr (items ++ .obj entries' :: items')) :: back)

/-- **An object of a declaration is edited**: its own, or one of a member. -/
inductive Edited (R : Part → List (String × Json) → List (String × Json) → Prop) :
    List (String × Json) → List (String × Json) → Prop
  | here {entries entries'} (h : R .declaration entries entries') : Edited R entries entries'
  | member {entries entries'} (items items' front back) (h : MemberEdited R entries entries') :
    Edited R (front ++ ("members", .arr (items ++ .obj entries :: items')) :: back)
      (front ++ ("members", .arr (items ++ .obj entries' :: items')) :: back)

end Decl

/-! ### Kinds of members -/

namespace MemberKind

variable {α : Type} {s : Shape α} {kind : α → MemberKind} {o : Option ReadError}

/-- What is particular to a kind is a record. -/
inductive IsRecord : {α : Type} → Shape α → (α → MemberKind) → Prop
  | field : IsRecord Field.shape field
  | property : IsRecord Property.shape property
  | method : IsRecord Method.shape method
  | constructor : IsRecord Constructor.shape constructor

theorem exists_isRecord {r : String × (List (String × Json) → Except ReadError MemberKind)}
    (hr : r ∈ readers) : ∃ (α : Type) (s : Shape α) (kind : α → MemberKind),
      IsRecord s kind ∧ ∀ entries, r.2 entries = (s.readEntries entries).map kind := by
  simp only [readers, List.mem_cons, List.not_mem_nil, or_false] at hr
  rcases hr with rfl | rfl | rfl | rfl
  · exact ⟨Field, _, _, .field, fun _ => rfl⟩
  · exact ⟨Property, _, _, .property, fun _ => rfl⟩
  · exact ⟨Method, _, _, .method, fun _ => rfl⟩
  · exact ⟨Constructor, _, _, .constructor, fun _ => rfl⟩

theorem mem_readers_of_readTag {tag : Json}
    {read : List (String × Json) → Except ReadError MemberKind} (h : readTag tag = .ok read) :
    ∃ r ∈ readers, r.2 = read := by
  unfold readTag at h
  split at h
  · next word =>
    unfold known at h
    split at h
    · next r hr =>
      obtain ⟨front, back, hreaders, -⟩ := List.lookup_eq_some_iff.mp hr
      refine ⟨(word, r), ?_, Except.ok.inj h⟩
      rw [hreaders]
      exact List.mem_append_right front List.mem_cons_self
    · exact nomatch h
  · split at h
    · split at h
      · next r hr => exact ⟨r, List.mem_of_getElem? hr, Except.ok.inj h⟩
      · exact nomatch h
    · exact nomatch h
  · exact nomatch h

theorem exists_tag {entries : List (String × Json)} {k : MemberKind}
    (h : readEntries entries = .ok k) :
    ∃ e, entries.filter (·.1 == "kind") = [e] ∧ ∃ r ∈ readers, readTag e.2 = .ok r.2 ∧
      r.2 (entries.filter (·.1 != "kind")) = .ok k := by
  unfold readEntries at h
  split at h
  · exact nomatch h
  · next key tag others htag =>
    obtain ⟨read, hread, hkind⟩ := Logged.except_bind_ok_iff.mp h
    obtain ⟨r, hr, rfl⟩ := mem_readers_of_readTag hread
    split_ifs at hkind with hothers
    rw [List.isEmpty_iff.mp hothers] at htag
    exact ⟨(key, tag), htag, r, hr, hread, hkind⟩

theorem readEntries_of_tag {entries : List (String × Json)} {e : String × Json}
    {read : List (String × Json) → Except ReadError MemberKind}
    (htag : entries.filter (·.1 == "kind") = [e]) (hread : readTag e.2 = .ok read) :
    readEntries entries = read (entries.filter (·.1 != "kind")) := by
  obtain ⟨key, tag⟩ := e
  unfold readEntries
  rw [htag]
  show (readTag tag >>= fun read => _) = _
  rw [hread]
  rfl

theorem IsRecord.keys_eq (h : IsRecord s kind) (a : α) : (kind a).keys = s.keys := by
  cases h <;> rfl

open Decl.Part (HasDefault)

/-- A default can be left out of what is particular to any kind. -/
theorem IsRecord.drops {key : String} {v : Json} (hs : IsRecord s kind)
    (h : HasDefault .member key v) : s.Allows key (some v) none := by
  have htype : "type" ≠ key := by
    rintro rfl
    simp [HasDefault] at h
  have hdefault : "default" = key → nullable string v = .ok none := by
    rintro rfl
    obtain rfl : v = .null := by simpa [HasDefault] using h
    rfl
  have hparams : "params" = key → list Parameter.shape.read v = .ok [] := by
    rintro rfl
    obtain rfl : v = .arr [] := by simpa [HasDefault] using h
    rfl
  have hbody : "body" = key → list string v = .ok [] := by
    rintro rfl
    obtain rfl : v = .arr [] := by simpa [HasDefault] using h
    rfl
  cases hs with
  | field =>
    have hmutability : "mutability" = key → lateWord Mutability.ofSpelling? v = .ok .mutable := by
      rintro rfl
      simpa [HasDefault] using h
    exact ((drops_required htype).map.seq (drops_optional hdefault)).seq
      (drops_optional hmutability)
  | property =>
    have hgetter : "getter" = key → Accessor.shape.read v = .ok {} := by
      rintro rfl
      simpa [HasDefault] using h
    have hsetter : "setter" = key → nullable Accessor.shape.read v = .ok none := by
      rintro rfl
      obtain rfl : v = .null := by simpa [HasDefault] using h
      rfl
    exact (((drops_required htype).map.seq (drops_optional hgetter)).seq
      (drops_optional hsetter)).seq (drops_optional hdefault)
  | method =>
    have hresult : "returnType" = key → string v = .ok voidType := by
      rintro rfl
      obtain rfl : v = .str "void" := by simpa [HasDefault] using h
      rfl
    exact ((drops_optional hresult).map.seq (drops_optional hparams)).seq (drops_optional hbody)
  | constructor => exact (drops_optional hparams).map.seq (drops_optional hbody)

/-- An accessor is edited; only a property has any. -/
theorem IsRecord.turns_accessor {key : String} {entries entries' : List (String × Json)}
    (hs : IsRecord s kind) (hkey : key ∈ ["getter", "setter"]) (hmem : key ∈ s.keys)
    (h : Accessor.shape.read.Turns o (.obj entries) (.obj entries')) :
    s.Turns o key (.obj entries) (.obj entries') := by
  cases hs with
  | field =>
    have hnone : ∀ k ∈ ["getter", "setter"], k ∉ Field.shape.keys := by decide
    exact absurd hmem (hnone key hkey)
  | property =>
    have hne : ∀ k ∈ ["getter", "setter"], "type" ≠ k ∧ "default" ≠ k := by decide
    obtain ⟨htype, hdefault⟩ := hne key hkey
    exact (((turns_required fun hk => absurd hk htype).map.seq (turns_optional fun _ => h)).seq
      (turns_optional fun _ => h.nullable)).seq (turns_optional fun hk => absurd hk hdefault)
  | method =>
    have hnone : ∀ k ∈ ["getter", "setter"], k ∉ Method.shape.keys := by decide
    exact absurd hmem (hnone key hkey)
  | constructor =>
    have hnone : ∀ k ∈ ["getter", "setter"], k ∉ Constructor.shape.keys := by decide
    exact absurd hmem (hnone key hkey)

/-- A parameter is edited; fields and properties have none. -/
theorem IsRecord.turns_parameter {entries entries' : List (String × Json)}
    {items items' : List Json} (hs : IsRecord s kind) (hmem : "params" ∈ s.keys)
    (h : Parameter.shape.read.Turns o (.obj entries) (.obj entries')) :
    s.Turns o "params" (.arr (items ++ .obj entries :: items'))
      (.arr (items ++ .obj entries' :: items')) := by
  have hlist := h.list items items'
  cases hs with
  | field => exact absurd hmem (by decide)
  | property => exact absurd hmem (by decide)
  | method =>
    have hresult : "returnType" ≠ "params" := by decide
    have hbody : "body" ≠ "params" := by decide
    exact ((turns_optional fun hk => absurd hk hresult).map.seq (turns_optional fun _ => hlist)).seq
      (turns_optional fun hk => absurd hk hbody)
  | constructor =>
    have hbody : "body" ≠ "params" := by decide
    exact (turns_optional fun _ => hlist).map.seq (turns_optional fun hk => absurd hk hbody)

end MemberKind

/-! ### Members -/

namespace Member

variable {entries entries' front back : List (String × Json)} {key : String} {v : Json}
  {o : Option ReadError} {m : Member}

/-- The entries that all members have. -/
def commonOf (entries : List (String × Json)) : List (String × Json) :=
  entries.filter (·.1 ∈ shape.keys)

/-- The entries for the kind. -/
def tagOf (entries : List (String × Json)) : List (String × Json) :=
  (entries.filter (·.1 ∉ shape.keys)).filter (·.1 == "kind")

/-- The entries that are particular to the kind. -/
def particularOf (entries : List (String × Json)) : List (String × Json) :=
  (entries.filter (·.1 ∉ shape.keys)).filter (·.1 != "kind")

theorem kind_of_readEntries {common : MemberKind → Member}
    (h : shape.readEntries entries = .ok common) (kind : MemberKind) :
    (common kind).kind = kind := by
  have hbuilds : shape.Builds fun common => ∀ kind, (common kind).kind = kind := by
    refine .seq (.seq (.seq (.seq (builds_map ?_))))
    intros
    rfl
  exact hbuilds _ common (readEntries_ok_iff.mp h).2.2 kind

/-- **What a member is read from**: its modifiers, one entry for the kind, and the entries that are
particular to the kind. -/
theorem read_obj_ok (h : read (.obj entries) = .ok m) :
    ∃ common e, ∃ r ∈ MemberKind.readers, shape.readEntries (commonOf entries) = .ok common ∧
      tagOf entries = [e] ∧ MemberKind.readTag e.2 = .ok r.2 ∧
      r.2 (particularOf entries) = .ok m.kind ∧ common m.kind = m := by
  obtain ⟨common, hcommon, h⟩ := Logged.except_bind_ok_iff.mp h
  obtain ⟨kind, hkind, h⟩ := Logged.except_bind_ok_iff.mp h
  obtain rfl := Except.ok.inj h
  obtain ⟨e, htag, r, hr, hread, hkind⟩ := MemberKind.exists_tag hkind
  rw [kind_of_readEntries hcommon]
  exact ⟨common, e, r, hr, hcommon, htag, hread, hkind, rfl⟩

theorem read_obj_of_tag {common : MemberKind → Member} {e : String × Json}
    {r : List (String × Json) → Except ReadError MemberKind}
    (hcommon : shape.readEntries (commonOf entries) = .ok common) (htag : tagOf entries = [e])
    (hread : MemberKind.readTag e.2 = .ok r) :
    read (.obj entries) = (r (particularOf entries)).map common := by
  show (shape.readEntries (commonOf entries) >>= fun common => _) = _
  rw [hcommon]
  show (MemberKind.readEntries _ >>= fun kind => Except.ok (common kind)) = _
  rw [MemberKind.readEntries_of_tag htag hread]
  show (r (particularOf entries) >>= fun kind => Except.ok (common kind)) = _
  cases r (particularOf entries) <;> rfl

/-- **An edited member turns out** as the edit leaves its modifiers and its kind, and turns what is
particular to the kind. -/
theorem turns_of_parts
    (hcommon : Turned none (shape.readEntries (commonOf entries))
      (shape.readEntries (commonOf entries')))
    (htag : ∀ e, tagOf entries = [e] → tagOf entries' = [e])
    (hparticular : ∀ m, read (.obj entries) = .ok m → ∀ r ∈ MemberKind.readers,
      r.2 (particularOf entries) = .ok m.kind →
        r.2 (particularOf entries') = ReadError.after o m.kind) :
    read.Turns o (.obj entries) (.obj entries') := by
  intro m h
  obtain ⟨common, e, r, hr, hmodifiers, he, hread, hkind, hm⟩ := read_obj_ok h
  rw [read_obj_of_tag (hcommon common hmodifiers) (htag e he) hread, hparticular m h r hr hkind]
  cases o with
  | none => exact congrArg Except.ok hm
  | some e => rfl

theorem turns_reordered (h : entries.Perm entries') :
    read.Turns none (.obj entries) (.obj entries') := by
  have hothers := h.filter (·.1 ∉ shape.keys)
  refine turns_of_parts (fun common hcommon => ?_) (fun e he => ?_) fun m _ r hr hkind => ?_
  · exact readEntries_of_perm (h.filter _) hcommon
  · have htag : (tagOf entries).Perm (tagOf entries') := hothers.filter _
    rw [he] at htag
    exact (List.singleton_perm.mp htag).symm
  · obtain ⟨α, s, kind, -, hread⟩ := MemberKind.exists_isRecord hr
    rw [hread] at hkind ⊢
    have hturned : Turned none (s.readEntries (particularOf entries))
        (s.readEntries (particularOf entries')) := fun a ha =>
      readEntries_of_perm (hothers.filter _) ha
    exact hturned.map _ hkind

/-! ### One entry of a member -/

theorem commonOf_append (front back : List (String × Json)) :
    commonOf (front ++ back) = commonOf front ++ commonOf back := List.filter_append ..

theorem particularOf_append (front back : List (String × Json)) :
    particularOf (front ++ back) = particularOf front ++ particularOf back := by
  simp [particularOf]

/-- An entry that all members have goes to the modifiers. -/
theorem parts_of_mem_keys (h : key ∈ shape.keys) (v : Json) (front back : List (String × Json)) :
    commonOf (front ++ (key, v) :: back) = commonOf front ++ (key, v) :: commonOf back ∧
    tagOf (front ++ (key, v) :: back) = tagOf (front ++ back) ∧
    particularOf (front ++ (key, v) :: back) = particularOf (front ++ back) := by
  simp [commonOf, tagOf, particularOf, h]

/-- Another entry, except that for the kind, is particular to the kind. -/
theorem parts_of_not_mem_keys (h : key ∉ shape.keys) (hkind : key ≠ "kind") (v : Json)
    (front back : List (String × Json)) :
    commonOf (front ++ (key, v) :: back) = commonOf (front ++ back) ∧
    tagOf (front ++ (key, v) :: back) = tagOf (front ++ back) ∧
    particularOf (front ++ (key, v) :: back) =
      particularOf front ++ (key, v) :: particularOf back := by
  simp [commonOf, tagOf, particularOf, h, hkind]

/-- A default can be left out of the modifiers. -/
theorem drops_shape (h : Decl.Part.member.HasDefault key v) : shape.Allows key (some v) none := by
  have hname : "name" ≠ key := by
    rintro rfl
    simp [Decl.Part.HasDefault] at h
  have hvisibility : "visibility" = key → word Visibility.ofKey? v = .ok .priv := by
    rintro rfl
    simpa [Decl.Part.HasDefault] using h
  have hflag : "static" = key ∨ "override" = key → bool v = .ok false := by
    rintro (rfl | rfl)
    all_goals
      obtain rfl : v = .bool false := by simpa [Decl.Part.HasDefault] using h
      rfl
  have hspecial : "special" = key → nullable (word Special.ofSpelling?) v = .ok none := by
    rintro rfl
    obtain rfl : v = .null := by simpa [Decl.Part.HasDefault] using h
    rfl
  exact ((((drops_required hname).map.seq (drops_optional hvisibility)).seq
    (drops_optional fun hk => hflag (.inl hk))).seq (drops_optional fun hk => hflag (.inr hk))).seq
    (drops_optional hspecial)

theorem turns_shortened (h : Decl.Part.member.HasDefault key v) :
    read.Turns none (.obj (front ++ (key, v) :: back)) (.obj (front ++ back)) := by
  by_cases hkey : key ∈ shape.keys
  · obtain ⟨hcommon, htag, hparticular⟩ := parts_of_mem_keys hkey v front back
    refine turns_of_parts (fun common hread => ?_) (fun e he => ?_) fun m _ r _ hkind => ?_
    · rw [hcommon] at hread
      rw [commonOf_append]
      exact readEntries_dropped (drops_shape h) hread
    · rw [← htag, he]
    · rw [← hparticular]
      exact hkind
  · have hkind : key ≠ "kind" := by
      rintro rfl
      simp [Decl.Part.HasDefault] at h
    obtain ⟨hcommon, htag, hparticular⟩ := parts_of_not_mem_keys hkey hkind v front back
    refine turns_of_parts (fun common hread => ?_) (fun e he => ?_) fun m _ r hr hm => ?_
    · rw [← hcommon]
      exact hread
    · rw [← htag, he]
    · obtain ⟨α, s, kind, hs, hread⟩ := MemberKind.exists_isRecord hr
      rw [hread, hparticular] at hm
      rw [hread, particularOf_append]
      have hturned : Turned none
          (s.readEntries (particularOf front ++ (key, v) :: particularOf back))
          (s.readEntries (particularOf front ++ particularOf back)) := fun a ha =>
        readEntries_dropped (hs.drops h) ha
      exact hturned.map _ hm

theorem turns_gained (h : key ∉ Decl.Part.member.keys (front ++ back)) :
    read.Turns (some (.unknown key)) (.obj (front ++ back)) (.obj (front ++ (key, v) :: back)) := by
  unfold Decl.Part.keys at h
  rw [List.mem_append, not_or] at h
  obtain ⟨hcommon, hparticular⟩ := h
  have hshape : shape.keys = ["name", "visibility", "static", "override", "special"] := rfl
  have hkey : key ∉ shape.keys := by
    rw [hshape]
    exact fun hmem => hcommon (List.mem_append_left ["kind"] hmem)
  have hkind : key ≠ "kind" := by
    rintro rfl
    exact hcommon (by decide)
  obtain ⟨hcommon', htag', hparticular'⟩ := parts_of_not_mem_keys hkey hkind v front back
  refine turns_of_parts (fun common hread => ?_) (fun e he => ?_) fun m hm r hr hk => ?_
  · rw [hcommon']
    exact hread
  · rw [htag', he]
  · obtain ⟨α, s, kind, hs, hread⟩ := MemberKind.exists_isRecord hr
    rw [hm] at hparticular
    rw [hread, particularOf_append] at hk
    rw [hread, hparticular']
    cases hrecord : s.readEntries (particularOf front ++ particularOf back) with
    | error e =>
      rw [hrecord] at hk
      exact nomatch hk
    | ok a =>
      rw [hrecord] at hk
      have hnone : key ∉ s.keys := by
        rw [← hs.keys_eq a, Except.ok.inj hk]
        exact hparticular
      rw [readEntries_intruded hnone hrecord]
      rfl

/-- The value of a particular entry is edited. -/
theorem turns_particular {v' : Json} (hkey : key ∉ shape.keys) (hkind : key ≠ "kind")
    (h : ∀ {α : Type} {s : Shape α} {kind : α → MemberKind}, MemberKind.IsRecord s kind →
      key ∈ s.keys → s.Turns o key v v') :
    read.Turns o (.obj (front ++ (key, v) :: back)) (.obj (front ++ (key, v') :: back)) := by
  obtain ⟨hcommon, htag, hparticular⟩ := parts_of_not_mem_keys hkey hkind v front back
  obtain ⟨hcommon', htag', hparticular'⟩ := parts_of_not_mem_keys hkey hkind v' front back
  refine turns_of_parts (fun common hread => ?_) (fun e he => ?_) fun m _ r hr hm => ?_
  · rw [hcommon', ← hcommon]
    exact hread
  · rw [htag', ← htag, he]
  · obtain ⟨α, s, kind, hs, hread⟩ := MemberKind.exists_isRecord hr
    rw [hread, hparticular] at hm
    rw [hread, hparticular']
    exact (readEntries_turned (h hs)).map _ hm

end Member

/-! ### Declarations -/

namespace Decl

open ClassIdiom.Decl.Part

variable {entries entries' front back : List (String × Json)} {key : String} {v : Json}
  {o : Option ReadError} {part : Part} {d : Decl}

/-- A default can be left out of a declaration. -/
theorem drops_shape (h : declaration.HasDefault key v) : shape.Allows key (some v) none := by
  have hname : "name" ≠ key := by
    rintro rfl
    simp [HasDefault] at h
  have hvisibility : "visibility" = key → word Visibility.ofKey? v = .ok .pub := by
    rintro rfl
    simpa [HasDefault] using h
  have hnull : "special" = key ∨ "container" = key → v = .null := by
    rintro (rfl | rfl) <;> simpa [HasDefault] using h
  have hempty : "imports" = key ∨ "baseTypes" = key ∨ "capabilities" = key ∨ "members" = key →
      v = .arr [] := by
    rintro (rfl | rfl | rfl | rfl) <;> simpa [HasDefault] using h
  have hspecial : "special" = key → nullable (word Special.ofSpelling?) v = .ok none := by
    intro hk
    rw [hnull (.inl hk)]
    rfl
  have hcontainer : "container" = key → nullable string v = .ok none := by
    intro hk
    rw [hnull (.inr hk)]
    rfl
  have hlist : "imports" = key ∨ "baseTypes" = key → list string v = .ok [] := by
    intro hk
    rw [hempty (hk.imp_right .inl)]
    rfl
  have hcapabilities : "capabilities" = key →
      (OrderedSet.ofList <$> list string v : Except ReadError _) = .ok {} := by
    intro hk
    rw [hempty (.inr (.inr (.inl hk)))]
    rfl
  have hmembers : "members" = key → list Member.read v = .ok [] := by
    intro hk
    rw [hempty (.inr (.inr (.inr hk)))]
    rfl
  exact (((((((drops_required hname).map.seq (drops_optional hvisibility)).seq
    (drops_optional hspecial)).seq (drops_optional hcontainer)).seq
    (drops_optional fun hk => hlist (.inl hk))).seq (drops_optional fun hk => hlist (.inr hk))).seq
    (drops_optional hcapabilities)).seq (drops_optional hmembers)

/-- A member is edited. -/
theorem turns_members {items items' : List Json}
    (h : Member.read.Turns o (.obj entries) (.obj entries')) :
    shape.Turns o "members" (.arr (items ++ .obj entries :: items'))
      (.arr (items ++ .obj entries' :: items')) := by
  have hother : ∀ k ∈ ["name", "visibility", "special", "container", "imports", "baseTypes",
      "capabilities"], k ≠ "members" := by decide
  simp only [List.forall_mem_cons] at hother
  obtain ⟨hname, hvisibility, hspecial, hcontainer, himports, hbaseTypes, hcapabilities, -⟩ := hother
  exact (((((((turns_required fun hk => absurd hk hname).map.seq
    (turns_optional fun hk => absurd hk hvisibility)).seq
    (turns_optional fun hk => absurd hk hspecial)).seq
    (turns_optional fun hk => absurd hk hcontainer)).seq
    (turns_optional fun hk => absurd hk himports)).seq
    (turns_optional fun hk => absurd hk hbaseTypes)).seq
    (turns_optional fun hk => absurd hk hcapabilities)).seq
    (turns_optional fun _ => h.list items items')

/-- **An edit of an object turns its reading**, as the part of a declaration that it is. -/
def Part.Turns : Part → Option ReadError → List (String × Json) → List (String × Json) → Prop
  | declaration, o, entries, entries' => shape.read.Turns o (.obj entries) (.obj entries')
  | member, o, entries, entries' => Member.read.Turns o (.obj entries) (.obj entries')
  | accessor, o, entries, entries' => Accessor.shape.read.Turns o (.obj entries) (.obj entries')
  | parameter, o, entries, entries' => Parameter.shape.read.Turns o (.obj entries) (.obj entries')

/-- An object that is recast is read as before. -/
theorem Recast.turns (h : Recast part entries entries') : part.Turns none entries entries' := by
  cases h with
  | reordered h =>
    cases part with
    | declaration => exact fun _ => readEntries_of_perm h
    | member => exact Member.turns_reordered h
    | accessor => exact fun _ => readEntries_of_perm h
    | parameter => exact fun _ => readEntries_of_perm h
  | shortened front back h =>
    cases part with
    | declaration => exact fun _ => readEntries_dropped (drops_shape h)
    | member => exact Member.turns_shortened h
    | accessor =>
      obtain ⟨rfl, rfl⟩ := h
      have hnull : nullable (lateWord Visibility.ofKey?) .null = .ok none := rfl
      exact fun _ => readEntries_dropped (drops_optional fun _ => hnull).map
    | parameter => exact h.elim

/-- An object that gains an entry is refused for it. -/
theorem Gains.turns (h : Gains key part entries entries') :
    part.Turns (some (.unknown key)) entries entries' := by
  obtain ⟨v, front, back, h⟩ := h
  cases part with
  | declaration => exact fun _ => readEntries_intruded h
  | member => exact Member.turns_gained h
  | accessor => exact fun _ => readEntries_intruded h
  | parameter => exact fun _ => readEntries_intruded h

variable {R : Part → List (String × Json) → List (String × Json) → Prop}

theorem MemberEdited.turns (h : MemberEdited R entries entries')
    (hR : ∀ {part entries entries'}, R part entries entries' → part.Turns o entries entries') :
    Member.read.Turns o (.obj entries) (.obj entries') := by
  cases h with
  | here h => exact hR h
  | accessor front back hkey h =>
    have hparticular : ∀ k ∈ ["getter", "setter"], k ∉ Member.shape.keys ∧ k ≠ "kind" := by
      decide
    obtain ⟨hcommon, hkind⟩ := hparticular _ hkey
    refine Member.turns_particular hcommon hkind fun hs hmem => ?_
    exact hs.turns_accessor hkey hmem (hR h)
  | parameter items items' front back h =>
    refine Member.turns_particular (by decide) (by decide) fun hs hmem => ?_
    exact hs.turns_parameter hmem (hR h)

/-- **A declaration turns out as the object does** that is edited. -/
theorem Edited.turns (h : Edited R entries entries')
    (hR : ∀ {part entries entries'}, R part entries entries' → part.Turns o entries entries') :
    shape.read.Turns o (.obj entries) (.obj entries') := by
  cases h with
  | here h => exact hR h
  | member items items' front back h => exact readEntries_turned fun _ => turns_members (h.turns hR)

/-- **Declarations are read strictly, and in any order.** A text whose objects are recast, any
number of them, gives the same declaration. A text in which one object gains an entry that it does
not define gives none: the entry is reported. -/
theorem parse_edited {text text' : String} (htext : Json.parse? text = some (.obj entries))
    (htext' : Json.parse? text' = some (.obj entries')) (h : parse text = .ok d) :
    (Relation.ReflTransGen (Edited Recast) entries entries' → parse text' = .ok d) ∧
    ∀ key, Edited (Gains key) entries entries' → parse text' = .error (.unknown key) := by
  have hread : shape.read (.obj entries) = .ok d := by
    unfold parse at h
    rwa [htext] at h
  have hparse : parse text' = shape.read (.obj entries') := by
    unfold parse
    rw [htext']
  rw [hparse]
  constructor
  · intro hrecast
    clear htext' hparse
    induction hrecast with
    | refl => exact hread
    | tail _ hedit ih => exact hedit.turns Recast.turns d ih
  · intro key hgains
    exact hgains.turns Gains.turns d hread

/-- A class with one property. -/
def lengthDecl : Decl where
  name := "Track"
  members := [{ name := "Length", kind := .property { type := "int" } }]

/-- The object of the class, where the property has the given entries. -/
def lengthEntries (property : List (String × Json)) : List (String × Json) :=
  [("name", .str "Track"), ("visibility", .str "public"), ("members", .arr [.obj property])]

/-- The entries of the property, of which some may come before its name. -/
def lengthProperty (others : List (String × Json)) : List (String × Json) :=
  [("kind", .str "property")] ++ others ++
    [("name", .str "Length"), ("type", .str "int"), ("getter", .obj [("visibility", .null)])]

/-- The same class, with the entries turned around and without defaults. -/
def lengthRecast : List (String × Json) :=
  [("members", .arr [.obj [("name", .str "Length"), ("type", .str "int"), ("getter", .obj []),
    ("kind", .str "property")]]), ("name", .str "Track")]

theorem edited_lengthRecast :
    Relation.ReflTransGen (Edited Recast) (lengthEntries (lengthProperty [])) lengthRecast := by
  -- A getter without a visibility, the kind at the end, a class that is public by default.
  have hgetter : Edited Recast (lengthEntries (lengthProperty []))
      (lengthEntries [("kind", .str "property"), ("name", .str "Length"), ("type", .str "int"),
        ("getter", .obj [])]) :=
    .member [] [] [_, _] [] (.accessor [_, _, _] [] (by decide) (.shortened [] [] ⟨rfl, rfl⟩))
  have hkind : Edited Recast
      (lengthEntries [("kind", .str "property"), ("name", .str "Length"), ("type", .str "int"),
        ("getter", .obj [])])
      (lengthEntries [("name", .str "Length"), ("type", .str "int"), ("getter", .obj []),
        ("kind", .str "property")]) :=
    .member [] [] [_, _] [] (.here (.reordered (List.perm_append_singleton _ [_, _, _]).symm))
  have hpublic : Edited Recast
      (lengthEntries [("name", .str "Length"), ("type", .str "int"), ("getter", .obj []),
        ("kind", .str "property")]) lengthRecast.reverse :=
    .here (.shortened [_] [_] (.inl ⟨rfl, rfl⟩))
  have hmembers : Edited Recast lengthRecast.reverse lengthRecast :=
    .here (.reordered (List.reverse_perm _))
  exact (((Relation.ReflTransGen.single hgetter).tail hkind).tail hpublic).tail hmembers

theorem parse_edited_length :
    parse (Json.obj (lengthEntries (lengthProperty []))).compress = .ok lengthDecl ∧
    parse (Json.obj lengthRecast).compress = .ok lengthDecl ∧
    parse (Json.obj (lengthEntries (lengthProperty [("params", .arr [])]))).compress =
      .error (.unknown "params") := by
  have htext : ∀ others, (∀ e ∈ others, Json.Fits 1 e.2) →
      Json.parse? (Json.obj (lengthEntries (lengthProperty others))).compress =
        some (.obj (lengthEntries (lengthProperty others))) := by
    intro others hothers
    have hproperty : ∀ e ∈ lengthProperty others, Json.Fits 1 e.2 := by
      simp only [lengthProperty, List.forall_mem_append, List.forall_mem_cons]
      exact ⟨⟨⟨.str _, nofun⟩, hothers⟩, .str _, .str _, .obj (by simpa using .null), nofun⟩
    refine Json.parse?_compress (n := 4) (.obj ?_) (by decide)
    simp only [lengthEntries, List.forall_mem_cons]
    exact ⟨.str _, .str _, .arr (by simpa using .obj hproperty), nofun⟩
  have htext' : Json.parse? (Json.obj lengthRecast).compress = some (.obj lengthRecast) := by
    refine Json.parse?_compress (n := 4) (.obj ?_) (by decide)
    simp only [lengthRecast, List.forall_mem_cons]
    refine ⟨.arr ?_, .str _, nofun⟩
    simp only [List.forall_mem_cons]
    refine ⟨.obj ?_, nofun⟩
    simp only [List.forall_mem_cons]
    exact ⟨.str _, .str _, .obj nofun, .str _, nofun⟩
  have hread : shape.read (.obj (lengthEntries (lengthProperty []))) = .ok lengthDecl := by
    decide
  have hparse : parse (Json.obj (lengthEntries (lengthProperty []))).compress = .ok lengthDecl := by
    unfold parse
    rw [htext [] nofun]
    exact hread
  have hgains : Edited (Gains "params") (lengthEntries (lengthProperty []))
      (lengthEntries (lengthProperty [("params", .arr [])])) :=
    .member [] [] [_, _] [] (.here (.mk _ [_] [_, _, _] (by decide)))
  refine ⟨hparse, (parse_edited (htext [] nofun) htext' hparse).1 edited_lengthRecast, ?_⟩
  exact (parse_edited (htext [] nofun) (htext _ (by simpa using .arr nofun)) hparse).2 _ hgains

end Decl

end ClassIdiom
