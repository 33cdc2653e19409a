import ClassIdiom.Logged
import ClassIdiom.Profile.Basic

/-! # Declarations with access levels

The first stage gives the type and each member the access level of the target. It refuses what the
target cannot write: a visibility without a level, a special modifier without a form, and a static
constructor that takes parameters or that the target does not have. -/

namespace ClassIdiom

/-- A class with members of some kind, as it passes through the stages. -/
structure Outline (μ : Type) where
  name : String
  access : Access
  special : Option Special
  container : Option String
  imports : List String
  bases : List String
  capabilities : List String
  members : List μ
deriving DecidableEq, Repr

/-- A property whose accessors have their access levels. -/
structure MappedProperty where
  type : String
  getter : Access
  setter : Option Access
  initial : Option String
deriving DecidableEq, Repr

/-- The kind of a member, with what is particular to it. -/
inductive MappedKind where
  | field (f : Field)
  | property (p : MappedProperty)
  | method (m : Method)
  | constructor (c : Constructor)
deriving DecidableEq, Repr

/-- A member with its access level. -/
structure MappedMember where
  name : String
  access : Access
  isStatic : Bool
  isOverride : Bool
  special : Option Special
  kind : MappedKind
deriving DecidableEq, Repr

/-- A declaration with access levels. -/
abbrev Mapped := Outline MappedMember

namespace Profile

/-- The access level of a visibility, reporting the use of the fallback. -/
def lookUp {ε : Type} (p : Profile) (v : Visibility) : Logged ε (Option Access) := do
  if !p.visibility.contains v then
    Logged.log (.fallbackUsed p.target v p.fallback.level?)
  pure (p.access? v)

/-- The access level of a visibility in a type, on one of its members if one is given. -/
def mapVisibility (p : Profile) (typeName : String) (member : Option String) (v : Visibility) :
    Logged Failure Access := do
  match ← p.lookUp v with
  | some level => pure level
  | none => Logged.fail ⟨typeName, member, .unmappable v.spelling⟩

/-- A special modifier on a class must have a form. -/
def checkClassSpecial (p : Profile) (typeName : String) (special : Option Special) :
    Logged Failure Unit :=
  match special with
  | none => pure ()
  | some s =>
    Logged.require (p.style.classForms.contains s) ⟨typeName, none, .unmappable s.spelling⟩

/-- The kind of member can have special modifiers. -/
def takesSpecial : MemberKind → Bool
  | .method _ | .property _ => true
  | .field _ | .constructor _ => false

/-- A special modifier on a member must stand on a method or a property, and have a form. -/
def checkSpecial (p : Profile) (typeName : String) (m : Member) : Logged Failure Unit :=
  match m.special with
  | none => pure ()
  | some s =>
    Logged.require (takesSpecial m.kind && p.style.methodForms.contains s)
      ⟨typeName, some m.name, .unmappable s.spelling⟩

/-- The modifier that static members have. -/
def staticModifier : String := "static"

/-- A static constructor must have no parameters, and the target must have such constructors. -/
def checkStatic (p : Profile) (typeName : String) (m : Member) : Logged Failure Unit :=
  match m.kind, m.isStatic with
  | .constructor c, true =>
    Logged.require (p.style.staticInit != .unsupported && c.params.isEmpty)
      ⟨typeName, some m.name, .unmappable staticModifier⟩
  | _, _ => pure ()

/-- Gives a property's accessors their access levels. -/
def mapProperty (p : Profile) (typeName : String) (m : Member) (prop : Property) :
    Logged Failure MappedProperty := do
  let getter ← p.mapVisibility typeName (some m.name) (prop.getter.resolve m.visibility)
  let setter ← match prop.setter with
    | none => pure none
    | some a => some <$> p.mapVisibility typeName (some m.name) (a.resolve m.visibility)
  pure { type := prop.type, getter, setter, initial := prop.initial }

/-- Gives what is particular to a member its access levels. -/
def mapKind (p : Profile) (typeName : String) (m : Member) : Logged Failure MappedKind :=
  match m.kind with
  | .field f => pure (.field f)
  | .method x => pure (.method x)
  | .constructor c => pure (.constructor c)
  | .property prop => .property <$> p.mapProperty typeName m prop

/-- Gives a member its access levels. -/
def mapMember (p : Profile) (typeName : String) (m : Member) : Logged Failure MappedMember := do
  let access ← p.mapVisibility typeName (some m.name) m.visibility
  p.checkSpecial typeName m
  p.checkStatic typeName m
  let kind ← p.mapKind typeName m
  pure {
    name := m.name
    access
    isStatic := m.isStatic
    isOverride := m.isOverride
    special := m.special
    kind }

end Profile

/-- Gives a declaration and its members their access levels. -/
def Decl.mapped (d : Decl) (p : Profile) : Logged Failure Mapped := do
  let access ← p.mapVisibility d.name none d.visibility
  p.checkClassSpecial d.name d.special
  let members ← d.members.mapM (p.mapMember d.name)
  pure {
    name := d.name
    access
    special := d.special
    container := d.container
    imports := d.imports
    bases := d.bases
    capabilities := d.capabilities.toList
    members }

end ClassIdiom
