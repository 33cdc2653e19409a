import ClassIdiom.Mapped

/-! # Classes without properties

The second stage replaces each property by a backing field and accessors, in place, and gives
methods the names of the target. An abstract property has accessors only, without bodies.

Generated names may not clash with others. The names that are declared are claimed first, then
those that the properties generate, in order. A backing field clashes with everything of its name,
an accessor with everything of its name but methods of other parameter types. -/

namespace ClassIdiom

/-! ### Members -/

/-- Where a member comes from. -/
inductive Origin where
  | declared
  | generated (property : String)
deriving DecidableEq, Repr

/-- The name to report for a member: for a generated one that of its property. -/
def Origin.reportName (o : Origin) (own : String) : String :=
  match o with
  | declared => own
  | generated property => property

/-- Why a member is taken to override another. -/
inductive OverrideSource where
  /-- It is declared so. -/
  | declared
  /-- It is declared so, and a known ancestor has such a member. -/
  | confirmed (ancestor : String)
deriving DecidableEq, Repr

/-- The body of a method. -/
inductive MethodBody where
  /-- The lines of the declaration. -/
  | verbatim (lines : List String)
  /-- No body. -/
  | abstract
  /-- Returns a field. -/
  | read (field : String)
  /-- Sets a field to the value of a parameter. -/
  | write (field param : String)
deriving DecidableEq, Repr

/-- A field of a class. -/
structure FlatField where
  name : String
  access : Access
  isStatic : Bool
  type : String
  initial : Option String
  mutability : Mutability
  origin : Origin
deriving DecidableEq, Repr

/-- A method of a class. Its name is that of the target, its signature that of the declaration. -/
structure FlatMethod where
  name : String
  signature : Signature
  access : Access
  isStatic : Bool
  overrides : Option OverrideSource
  special : Option Special
  result : String
  params : List Parameter
  body : MethodBody
  origin : Origin
deriving DecidableEq, Repr

/-- A constructor of a class, or its static initializer. -/
structure FlatConstructor where
  signature : Signature
  access : Access
  isStatic : Bool
  overrides : Option OverrideSource
  params : List Parameter
  body : List String
deriving DecidableEq, Repr

/-- A member of a class, which is no property. -/
inductive FlatMember where
  | field (f : FlatField)
  | method (m : FlatMethod)
  | constructor (c : FlatConstructor)
deriving DecidableEq, Repr

namespace FlatMember

/-- The name in the target; for a constructor the one it is declared with. -/
def name : FlatMember → String
  | field f => f.name
  | method m => m.name
  | constructor c => c.signature.name

/-- The access level. -/
def access : FlatMember → Access
  | field f => f.access
  | method m => m.access
  | constructor c => c.access

/-- Where the member comes from. -/
def origin : FlatMember → Origin
  | field f => f.origin
  | method m => m.origin
  | constructor _ => .declared

/-- The member is a field. -/
def isField : FlatMember → Bool
  | field _ => true
  | method _ | constructor _ => false

end FlatMember

/-- A class without properties. -/
abbrev Flat := Outline FlatMember

/-! ### Expansion -/

namespace MappedMember

/-- The member is declared to override another. -/
def overrides (m : MappedMember) : Option OverrideSource :=
  if m.isOverride then some .declared else none

/-- The member is abstract. -/
def isAbstract (m : MappedMember) : Bool := m.special == some .abstract

/-- The backing field of a property. -/
def backingField (m : MappedMember) (n : Naming) (p : MappedProperty) : FlatField where
  name := n.backingField m.name
  access := .priv
  isStatic := m.isStatic
  type := p.type
  initial := p.initial
  mutability := .mutable
  origin := .generated m.name

/-- The getter of a property. -/
def getter (m : MappedMember) (n : Naming) (p : MappedProperty) : FlatMethod where
  name := n.getter m.name
  signature := Signature.of (n.getter m.name) []
  access := p.getter
  isStatic := m.isStatic
  overrides := m.overrides
  special := m.special
  result := p.type
  params := []
  body := if m.isAbstract then .abstract else .read (n.backingField m.name)
  origin := .generated m.name

/-- The parameters of the setter of a property. -/
def setterParams (n : Naming) (p : MappedProperty) : List Parameter :=
  [{ name := n.setterParam, type := p.type }]

/-- The setter of a property, with the given access level. -/
def setter (m : MappedMember) (n : Naming) (p : MappedProperty) (access : Access) :
    FlatMethod where
  name := n.setter m.name
  signature := Signature.of (n.setter m.name) (setterParams n p)
  access := access
  isStatic := m.isStatic
  overrides := m.overrides
  special := m.special
  result := voidType
  params := setterParams n p
  body := if m.isAbstract then .abstract else .write (n.backingField m.name) n.setterParam
  origin := .generated m.name

/-- What takes the place of a property. -/
def expandProperty (m : MappedMember) (n : Naming) (p : MappedProperty) : List FlatMember :=
  (if m.isAbstract then [] else [.field (m.backingField n p)]) ++
    .method (m.getter n p) :: (p.setter.map fun a => .method (m.setter n p a)).toList

/-- What takes the place of a member. -/
def expand (m : MappedMember) (n : Naming) : List FlatMember :=
  match m.kind with
  | .field f => [.field {
      name := m.name
      access := m.access
      isStatic := m.isStatic
      type := f.type
      initial := f.initial
      mutability := f.mutability
      origin := .declared }]
  | .method x => [.method {
      name := n.method m.name
      signature := Signature.of m.name x.params
      access := m.access
      isStatic := m.isStatic
      overrides := m.overrides
      special := m.special
      result := x.result
      params := x.params
      body := if m.isAbstract then .abstract else .verbatim x.body
      origin := .declared }]
  | .constructor c => [.constructor {
      signature := Signature.of m.name c.params
      access := m.access
      isStatic := m.isStatic
      overrides := m.overrides
      params := c.params
      body := c.body }]
  | .property p => m.expandProperty n p

end MappedMember

/-! ### Names in use -/

/-- What a name stands for. -/
inductive Occupant where
  | field
  | property
  | method
  | generated
deriving DecidableEq, Repr

/-- The word for what a name stands for. -/
def Occupant.word : Occupant → String
  | field => "field"
  | property => "property"
  | method => "method"
  | generated => "generated member"

/-- The names in use in a class. A name stands for what claimed it first; methods that share a name
are told apart by their parameter types. -/
structure NameTable where
  names : List (String × Occupant) := []
  methods : List Signature := []

namespace NameTable

/-- What a name stands for. -/
def occupant? (t : NameTable) (name : String) : Option Occupant := t.names.lookup name

/-- Claims a name. -/
def claim (t : NameTable) (name : String) (o : Occupant) : NameTable :=
  { t with names := t.names ++ [(name, o)] }

/-- Claims the name of a method, for its parameter types. -/
def claimMethod (t : NameTable) (s : Signature) : NameTable :=
  { t.claim s.name .method with methods := t.methods ++ [s] }

/-- What an accessor clashes with. -/
def accessorClash? (t : NameTable) (s : Signature) : Option Occupant :=
  match t.occupant? s.name with
  | some .method => if s ∈ t.methods then some .method else none
  | o => o

/-- Claims the name of a declared member. Constructors need none. -/
def claimDeclared (n : Naming) (t : NameTable) (m : MappedMember) : NameTable :=
  match m.kind with
  | .field _ => t.claim m.name .field
  | .property _ => t.claim m.name .property
  | .method x => t.claimMethod (Signature.of (n.method m.name) x.params)
  | .constructor _ => t

/-- The names in use before any are generated. -/
def declared (n : Naming) (members : List MappedMember) : NameTable :=
  members.foldl (claimDeclared n) {}

end NameTable

/-- The failure that a generated name is taken. -/
def nameTaken (typeName property generated : String) (existing : Occupant) : Failure where
  typeName := typeName
  member := some property
  cause := .collision generated (existing.word ++ " `" ++ generated ++ "`")

namespace NameTable

/-- Claims a name for a backing field and a getter. Both are judged before either is claimed. -/
def claimGetter (t : NameTable) (typeName property : String) (field : Option String)
    (getter : Signature) : Except Failure NameTable :=
  match field.bind fun f => (t.occupant? f).map fun o => (f, o) with
  | some (f, o) => .error (nameTaken typeName property f o)
  | none =>
    match t.accessorClash? getter with
    | some o => .error (nameTaken typeName property getter.name o)
    | none =>
      match field with
      | some f => .ok ((t.claim f .generated).claimMethod getter)
      | none => .ok (t.claimMethod getter)

/-- Claims a name for a setter. -/
def claimSetter (t : NameTable) (typeName property : String) (setter : Signature) :
    Except Failure NameTable :=
  match t.accessorClash? setter with
  | some o => .error (nameTaken typeName property setter.name o)
  | none => .ok (t.claimMethod setter)

/-- Claims the names that a property generates. -/
def claimProperty (t : NameTable) (n : Naming) (typeName : String) (m : MappedMember)
    (p : MappedProperty) : Except Failure NameTable := do
  let field := if m.isAbstract then none else some (n.backingField m.name)
  let t ← t.claimGetter typeName m.name field (m.getter n p).signature
  match p.setter with
  | none => .ok t
  | some a => t.claimSetter typeName m.name (m.setter n p a).signature

/-- Claims the names that a member generates, and reports the property. -/
def claimGenerated (n : Naming) (typeName : String) (t : NameTable) (m : MappedMember) :
    Logged Failure NameTable :=
  match m.kind with
  | .property p => do
    let t ← Logged.ofExcept (t.claimProperty n typeName m p)
    Logged.log (.propertyExpanded typeName m.name (n.backingField m.name) p.setter.isNone
      m.isAbstract)
    pure t
  | _ => pure t

end NameTable

/-- Replaces the properties of a class by fields and accessors. -/
def Mapped.flattened (m : Mapped) (n : Naming) : Logged Failure Flat := do
  let _ ← m.members.foldlM (NameTable.claimGenerated n m.name) (NameTable.declared n m.members)
  pure { m with members := m.members.flatMap (·.expand n) }

end ClassIdiom
