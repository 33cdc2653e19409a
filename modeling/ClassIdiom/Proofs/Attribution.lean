import ClassIdiom.Proofs.Expansion
import ClassIdiom.Proofs.Failures
import ClassIdiom.Proofs.Runs

/-! # What a failure names

A failure names the type that is converted and, unless the type as a whole is at fault, one of its
members by the name it is declared with, whatever the member has been renamed or expanded to.
`StageFailure.AttributedTo` says so, and that the stage is the one for the cause and that what is
named has what the failure complains of.

The proof goes along the phases of a conversion. What a phase keeps of the declaration
(`Phase.Keeps`) is handed on by each step, and a step from a phase that keeps it can only fail with
a failure that is attributed. Among what is kept is that no static initializer gets to a target that
has none: the last stage need not refuse it. -/

namespace ClassIdiom

/-- The stage that can fail for a cause. -/
def Cause.stage : Cause → Stage
  | unmappable _ => .mapping
  | collision _ _ => .expansion
  | multipleBases _ => .inheritance
  | unknownType _ => .emission

namespace Member

/-- The names that are generated for a member. -/
def generatedNames (m : Member) (n : Naming) : List String :=
  match m.kind with
  | .property p =>
    (if m.special = some .abstract then [] else [n.backingField m.name]) ++
      n.getter m.name :: (p.setter.map fun _ => n.setter m.name).toList
  | _ => []

/-- The types that a member mentions. A setter returns nothing. -/
def types (m : Member) : List String :=
  match m.kind with
  | .field f => [f.type]
  | .property p => p.type :: (p.setter.map fun _ => voidType).toList
  | .method x => x.result :: x.params.map (·.type)
  | .constructor c => c.params.map (·.type)

/-- The member has what a cause complains of. -/
def AtFault (m : Member) (n : Naming) : Cause → Prop
  | .unmappable word => word ∈ m.modifiers
  | .collision generated _ => generated ∈ m.generatedNames n
  | .multipleBases _ => False
  | .unknownType type => type ∈ m.types

end Member

/-- The type as a whole has what a cause complains of. -/
def Decl.AtFault (d : Decl) : Cause → Prop
  | .unmappable word => word ∈ d.modifiers
  | .multipleBases bases => bases = d.bases ∧ 1 < d.bases.length
  | .collision _ _ | .unknownType _ => False

/-- **The failure is that of a declaration**: its stage is the one for its cause, its type is the
one declared, and it names no member and the type is at fault, or it names a member that is. -/
structure StageFailure.AttributedTo (f : StageFailure) (d : Decl) (n : Naming) : Prop where
  stage : f.stage = f.failure.cause.stage
  typeName : f.failure.typeName = d.name
  member : f.failure.member = none ∧ d.AtFault f.failure.cause ∨
    ∃ m ∈ d.members, f.failure.member = some m.name ∧ m.AtFault n f.failure.cause

/-! ### What is kept of a member -/

/-- What a member of a class keeps of the declared member that it stands for. -/
structure FlatMember.StandsFor (p : Profile) (x : FlatMember) (m : Member) : Prop where
  reportName : x.reportName = m.name
  types : ∀ type ∈ x.types, type ∈ m.types
  supported : x.isStaticInit = true → p.style.staticInit ≠ .unsupported

namespace FlatMember

variable (source : Signature → OverrideSource) (x : FlatMember)

@[simp]
theorem reportName_marked : (x.marked source).reportName = x.reportName := by
  cases x <;> rfl

@[simp]
theorem types_marked : (x.marked source).types = x.types := by
  cases x <;> rfl

@[simp]
theorem isStaticInit_marked : (x.marked source).isStaticInit = x.isStaticInit := by
  cases x <;> rfl

theorem standsFor_marked_iff {p : Profile} {m : Member} :
    (x.marked source).StandsFor p m ↔ x.StandsFor p m := by
  constructor
  · rintro ⟨hname, htypes, hstatic⟩
    rw [reportName_marked] at hname
    rw [types_marked] at htypes
    rw [isStaticInit_marked] at hstatic
    exact ⟨hname, htypes, hstatic⟩
  · rintro ⟨hname, htypes, hstatic⟩
    exact ⟨by rw [reportName_marked, hname], by rwa [types_marked], by rwa [isStaticInit_marked]⟩

end FlatMember

namespace Member

variable {p : Profile} {typeName : String} {m : Member} {n : Naming}
  {source : Signature → OverrideSource}

theorem standsFor_storage {prop : Property} (hk : m.kind = .property prop) :
    (FlatMember.field (m.storage n prop)).StandsFor p m where
  reportName := rfl
  types := by simp [FlatMember.types, storage, Member.types, hk]
  supported h := absurd h Bool.false_ne_true

theorem standsFor_reader {prop : Property} (hk : m.kind = .property prop) (access : Access) :
    (FlatMember.method (m.reader n source prop access)).StandsFor p m where
  reportName := rfl
  types := by simp [FlatMember.types, reader, Member.types, hk]
  supported h := absurd h Bool.false_ne_true

theorem standsFor_writer {prop : Property} {a : Accessor} (hk : m.kind = .property prop)
    (hs : prop.setter = some a) (access : Access) :
    (FlatMember.method (m.writer n source prop access)).StandsFor p m where
  reportName := rfl
  types := by simp [FlatMember.types, writer, Member.types, hk, hs]
  supported h := absurd h Bool.false_ne_true

/-- A constructor that passes the check of statics is not static where the target has no static
initializers. -/
theorem supported_of_checkStatic {c : Constructor} (hk : m.kind = .constructor c)
    (h : (p.checkStatic typeName m).result = .ok ()) (hstatic : m.isStatic = true) :
    p.style.staticInit ≠ .unsupported := by
  unfold Profile.checkStatic at h
  rw [hk, hstatic] at h
  have hcheck := Logged.require_ok_iff.mp h
  simp only [Bool.and_eq_true, bne_iff_ne] at hcheck
  exact hcheck.1

/-- What a member is expanded to stands for it. -/
theorem Expands.standsFor {parts : List FlatMember} (h : m.Expands p source parts)
    (hstatic : (p.checkStatic typeName m).result = .ok ()) : ∀ x ∈ parts, x.StandsFor p m := by
  -- A property of either kind begins with its storage, unless it is abstract.
  have hstorage : ∀ prop, m.kind = .property prop → ∀ x ∈ (if m.special = some .abstract then []
      else [FlatMember.field (m.storage p.naming prop)]), x.StandsFor p m := by
    intro prop hk x hx
    split at hx
    · exact absurd hx List.not_mem_nil
    · rw [List.mem_singleton.mp hx]
      exact standsFor_storage hk
  cases h with
  | field hk _ =>
    refine List.forall_mem_singleton.mpr ⟨rfl, ?_, fun h => absurd h Bool.false_ne_true⟩
    simp [FlatMember.types, Member.types, hk]
  | method hk _ =>
    refine List.forall_mem_singleton.mpr ⟨rfl, ?_, fun h => absurd h Bool.false_ne_true⟩
    simp [FlatMember.types, Member.types, hk]
  | constructor hk _ =>
    refine List.forall_mem_singleton.mpr ⟨rfl, ?_, supported_of_checkStatic hk hstatic⟩
    intro type htype
    simpa [Member.types, hk] using FlatMember.mem_types_constructor htype
  | readOnly hk _ _ =>
    intro x hx
    rcases List.mem_append.mp hx with hx | hx
    · exact hstorage _ hk x hx
    · rw [List.mem_singleton.mp hx]
      exact standsFor_reader hk _
  | readWrite hk _ hs _ =>
    intro x hx
    rcases List.mem_append.mp hx with hx | hx
    · exact hstorage _ hk x hx
    · rcases List.mem_cons.mp hx with rfl | hx
      · exact standsFor_reader hk _
      · rw [List.mem_singleton.mp hx]
        exact standsFor_writer hk hs _

/-- What a member asks for, once it has its access levels, are the names generated for it. -/
theorem names_requests {a : MappedMember} (h : (p.mapMember typeName m).result = .ok a) :
    (a.requests n).flatMap Request.names = m.generatedNames n := by
  obtain ⟨-, -, -, hk, ha⟩ := Profile.mapMember_ok_iff.mp h
  rw [ha]
  generalize a.access = access
  generalize a.kind = kind at hk
  unfold Profile.mapKind at hk
  unfold MappedMember.requests generatedNames
  cases hm : m.kind with
  | field f =>
    rw [hm] at hk
    rw [← Logged.pure_ok_iff.mp hk]
    rfl
  | method x =>
    rw [hm] at hk
    rw [← Logged.pure_ok_iff.mp hk]
    rfl
  | constructor c =>
    rw [hm] at hk
    rw [← Logged.pure_ok_iff.mp hk]
    rfl
  | property prop =>
    rw [hm] at hk
    obtain ⟨q, hq, rfl⟩ := Logged.map_ok_iff.mp hk
    obtain ⟨-, hset, -, -⟩ := Profile.mapProperty_ok_iff.mp hq
    -- A setter is asked for exactly where one is declared, whatever access it got.
    have hsetter : (prop.setter.map fun _ => n.setter m.name) =
        q.setter.map fun _ => n.setter m.name := by
      have := congrArg (Option.map fun _ => n.setter m.name) hset
      simpa only [Option.map_map, Function.comp_def] using this
    have hreads : ((m.mappedAs access (.property q)).getter n q).signature.name =
        n.getter m.name := rfl
    have hwrites : ∀ w, ((m.mappedAs access (.property q)).setter n q w).signature.name =
        n.setter m.name := fun _ => rfl
    have hname : (m.mappedAs access (.property q)).name = m.name := rfl
    simp only [kind_mappedAs, isAbstract_mappedAs, decide_eq_true_eq, hsetter]
    by_cases habs : m.special = some .abstract
    · cases q.setter <;> simp [habs, Request.names, hreads, hwrites]
    · cases q.setter <;> simp [habs, Request.names, hreads, hwrites, hname]

end Member

/-! ### What is kept of a declaration -/

/-- **What a phase keeps of a declaration**: its name, its base types as long as they matter, and
for each member the declared member that it comes from. -/
def Phase.Keeps (p : Profile) (d : Decl) : Phase → Prop
  | .loaded d' => d' = d
  | .mapped m => m.name = d.name ∧ m.bases = d.bases ∧
      ∀ a ∈ m.members, ∃ x ∈ d.members, (p.mapMember d.name x).result = .ok a
  | .flat f => f.name = d.name ∧ f.bases = d.bases ∧
      ∀ y ∈ f.members, ∃ x ∈ d.members, y.StandsFor p x
  | .resolved c => c.name = d.name ∧ ∀ y ∈ c.members, ∃ x ∈ d.members, y.StandsFor p x
  | .emitted file => file.name = d.name

namespace Converter

variable {t : Converter} {d : Decl} {q q' : Phase} {f : StageFailure}

/-- The file of a class has the name of the class. -/
theorem name_of_emit {c : Resolved} {file : SourceFile} (h : t.emit c = .ok file) :
    file.name = c.name := by
  unfold emit at h
  obtain ⟨text, -, h⟩ := Logged.except_bind_ok_iff.mp h
  rw [← Except.ok.inj h]

/-- **A step keeps** what its phase keeps. -/
theorem keeps_advance (hq : q.Keeps t.profile d) (h : (t.advance q).result = .ok q') :
    q'.Keeps t.profile d := by
  cases q with
  | loaded d' =>
    obtain ⟨m, hm, rfl⟩ := Logged.map_ok_iff.mp h
    obtain rfl : d' = d := hq
    obtain ⟨-, -, hmembers, he⟩ := Decl.mapped_ok_iff.mp (Stage.run_ok_iff.mp hm)
    refine ⟨by rw [he], by rw [he], fun a ha => ?_⟩
    exact Logged.exists_of_mem_of_forall₂ hmembers ha
  | mapped m =>
    obtain ⟨f, hf, rfl⟩ := Logged.map_ok_iff.mp h
    obtain ⟨hname, hbases, hmembers⟩ := hq
    obtain ⟨-, rfl⟩ := Mapped.flattened_ok_iff.mp (Stage.run_ok_iff.mp hf)
    refine ⟨hname, hbases, fun y hy => ?_⟩
    obtain ⟨a, ha, hy⟩ := List.mem_flatMap.mp hy
    obtain ⟨x, hx, hxa⟩ := hmembers a ha
    -- The expansion is known with marks in it, and marks do not matter here.
    have hexp : x.Expands t.profile (fun _ => .declared) _ := Profile.expands_of_mapMember hxa
    obtain ⟨-, -, hstatic, -, -⟩ := Profile.mapMember_ok_iff.mp hxa
    have hstands := hexp.standsFor hstatic _ (List.mem_map_of_mem hy)
    exact ⟨x, hx, (FlatMember.standsFor_marked_iff _ y).mp hstands⟩
  | flat f =>
    obtain ⟨c, hc, rfl⟩ := Logged.map_ok_iff.mp h
    obtain ⟨hname, -, hmembers⟩ := hq
    obtain ⟨-, rfl⟩ := Flat.resolved_ok_iff.mp (Stage.run_ok_iff.mp hc)
    refine ⟨hname, fun y hy => ?_⟩
    obtain ⟨z, hz, rfl⟩ := List.mem_map.mp hy
    obtain ⟨x, hx, hstands⟩ := hmembers z hz
    exact ⟨x, hx, (FlatMember.standsFor_marked_iff _ z).mpr hstands⟩
  | resolved c =>
    obtain ⟨file, hfile, rfl⟩ := Logged.map_ok_iff.mp h
    exact (name_of_emit (Stage.run_ok_iff.mp hfile)).trans hq.1
  | emitted file =>
    obtain rfl := Logged.pure_ok_iff.mp h
    exact hq

/-- **Every phase that is reached** keeps what there is to keep. -/
theorem Reaches.keeps (h : t.Reaches d q) : q.Keeps t.profile d := by
  induction h with
  | start => rfl
  | step _ next ih => exact keeps_advance ih next

/-- Where the members of a class stand for declared ones, none is refused for being static. -/
theorem staticInit_of_keeps {c : Resolved} (hq : (Phase.resolved c).Keeps t.profile d)
    {y : FlatMember} (hy : y ∈ c.members) (hstatic : y.isStaticInit = true) :
    t.profile.style.staticInit ≠ .unsupported := by
  obtain ⟨x, -, hstands⟩ := hq.2 y hy
  exact hstands.supported hstatic

/-- **A step that fails** from a phase that keeps the declaration is attributed to it. -/
theorem attributedTo_of_advance_error (hq : q.Keeps t.profile d)
    (h : (t.advance q).result = .error f) : f.AttributedTo d t.profile.naming := by
  cases q with
  | loaded d' =>
    obtain rfl : d' = d := hq
    obtain ⟨e, he, rfl⟩ := Stage.run_error_iff.mp (Logged.map_error_iff.mp h)
    rcases Decl.mapped_error he with ⟨word, hword, rfl⟩ | ⟨m, hm, word, hword, rfl⟩
    · exact ⟨rfl, rfl, Or.inl ⟨rfl, hword⟩⟩
    · exact ⟨rfl, rfl, Or.inr ⟨m, hm, rfl, hword⟩⟩
  | mapped m =>
    obtain ⟨hname, -, hmembers⟩ := hq
    obtain ⟨e, he, rfl⟩ := Stage.run_error_iff.mp (Logged.map_error_iff.mp h)
    obtain ⟨a, ha, r, hr, name, hn, o, rfl⟩ := Mapped.flattened_error he
    obtain ⟨x, hx, hxa⟩ := hmembers a ha
    have hxname : a.name = x.name := by
      obtain ⟨-, -, -, -, hax⟩ := Profile.mapMember_ok_iff.mp hxa
      rw [hax]
      rfl
    have hgenerated : name ∈ x.generatedNames t.profile.naming := by
      rw [← Member.names_requests hxa]
      exact List.mem_flatMap.mpr ⟨r, hr, hn⟩
    exact ⟨rfl, hname, Or.inr ⟨x, hx, congrArg some hxname, hgenerated⟩⟩
  | flat g =>
    obtain ⟨hname, hbases, -⟩ := hq
    obtain ⟨e, he, rfl⟩ := Stage.run_error_iff.mp (Logged.map_error_iff.mp h)
    obtain ⟨hmany, rfl⟩ := Flat.resolved_error_iff.mp he
    rw [hbases] at hmany
    exact ⟨rfl, hname, Or.inl ⟨rfl, hbases, hmany⟩⟩
  | resolved c =>
    obtain ⟨e, he, rfl⟩ := Stage.run_error_iff.mp (Logged.map_error_iff.mp h)
    rw [Logged.result_ofExcept, emit] at he
    rcases Logged.except_bind_error_iff.mp he with he | ⟨text, -, he⟩
    · obtain ⟨y, hy, hlines⟩ := Layout.fileText_error he
      rcases Layout.memberLines_error hlines with ⟨type, htype, rfl⟩ | ⟨hstatic, hunsupported⟩
      · obtain ⟨x, hx, hstands⟩ := hq.2 y hy
        exact ⟨rfl, hq.1, Or.inr ⟨x, hx, congrArg some hstands.reportName,
          hstands.types type htype⟩⟩
      · -- The first stage has refused this already.
        exact absurd hunsupported (staticInit_of_keeps hq hy hstatic)
    · exact nomatch he
  | emitted file => exact nomatch h

/-- **Failures are attributed.** A conversion that fails does so at the stage for the cause, and
names the type and a member that is at fault, or none if the type is. A class that has come to the
last stage has no static initializer that this stage would refuse. -/
theorem convert_failure_attributed (t : Converter) (d : Decl) :
    (∀ f, (t.convert d).result = .error f → f.AttributedTo d t.profile.naming) ∧
      ∀ c, t.Reaches d (.resolved c) → ∀ k, FlatMember.constructor k ∈ c.members →
        k.isStatic = true → ∀ l : Layout, l.style = t.profile.style →
          ∃ lines, l.staticInitLines k = .ok lines := by
  constructor
  · intro f h
    obtain ⟨q, hq, hadvance⟩ := exists_reaches_of_convert_error h
    exact attributedTo_of_advance_error hq.keeps hadvance
  · intro c hc k hk hstatic l hl
    have hsupported := staticInit_of_keeps hc.keeps hk hstatic
    cases hlines : l.staticInitLines k with
    | ok lines => exact ⟨lines, rfl⟩
    | error e =>
      have hmember : l.memberLines (.constructor k) = .error e := by
        simp [Layout.memberLines, Layout.constructorLines, hstatic, hlines]
      rcases Layout.memberLines_error hmember with ⟨type, htype, -⟩ | ⟨-, hunsupported⟩
      · simp [FlatMember.types, hstatic] at htype
      · exact absurd (hl ▸ hunsupported) hsupported

/-- A class with a static initializer and a property of a type that is not known. -/
def registerDecl : Decl where
  name := "Register"
  members := [
    { name := "Register", isStatic := true, kind := .constructor { body := ["total = 0;"] } },
    { name := "Entry", visibility := .pub, kind := .property { type := "Ticket" } }]

/-- The converter to Java, with nothing else known. -/
def plainJava : Converter where
  profile := .java

theorem convert_failure_attributed_register :
    (∃ f, (plainJava.convert registerDecl).result = .error f ∧
      f = ⟨.emission, "Register", some "Entry", .unknownType "Ticket"⟩ ∧
      f.AttributedTo registerDecl Profile.java.naming) ∧
    ∃ c k, plainJava.Reaches registerDecl (.resolved c) ∧ FlatMember.constructor k ∈ c.members ∧
      k.isStatic = true ∧ ∀ l : Layout, l.style = Profile.java.style →
        ∃ lines, l.staticInitLines k = .ok lines := by
  have hattributed := convert_failure_attributed plainJava registerDecl
  refine ⟨⟨_, rfl, rfl, hattributed.1 _ rfl⟩, ?_⟩
  have hreaches : plainJava.Reaches registerDecl (.resolved _) :=
    .step (.step (.step .start rfl) rfl) rfl
  refine ⟨_, _, hreaches, List.mem_cons_self, rfl, ?_⟩
  exact hattributed.2 _ hreaches _ List.mem_cons_self rfl

end Converter

end ClassIdiom
