import ClassIdiom.Decl.Modifier
import ClassIdiom.OrderedSet

/-! # Type declarations

A declaration of a class as it is written before any target is chosen: its modifiers, its place, its
parents and its members. Types are spelled as text, and so are default values and the lines of a
body. -/

namespace ClassIdiom

/-- A parameter of a method or a constructor. -/
structure Parameter where
  name : String
  type : String
deriving DecidableEq, Repr

/-- What tells overloads apart: the name and the types of the parameters. -/
structure Signature where
  name : String
  paramTypes : List String
deriving DecidableEq, Repr

namespace Signature

/-- The signature of a member with the given parameters. -/
def of (name : String) (params : List Parameter) : Signature where
  name := name
  paramTypes := params.map (·.type)

/-- The number of parameters. -/
def arity (s : Signature) : Nat := s.paramTypes.length

/-- The signature as shown to readers. -/
def spelling (s : Signature) : String := s.name ++ "(" ++ ", ".intercalate s.paramTypes ++ ")"

end Signature

/-- What a field has besides its name and modifiers. -/
structure Field where
  type : String
  initial : Option String := none
  mutability : Mutability := .mutable
deriving DecidableEq, Repr

/-- One accessor of a property; without a visibility of its own it has that of the property. -/
structure Accessor where
  visibility : Option Visibility := none
deriving DecidableEq, Repr

/-- The visibility of an accessor of a property that is declared with the given one. -/
def Accessor.resolve (a : Accessor) (declared : Visibility) : Visibility :=
  a.visibility.getD declared

/-- What a property has besides its name and modifiers. It is read-only without a setter. -/
structure Property where
  type : String
  getter : Accessor := {}
  setter : Option Accessor := none
  initial : Option String := none
deriving DecidableEq, Repr

/-- The type of a method that returns nothing. -/
def voidType : String := "void"

/-- What a method has besides its name and modifiers. -/
structure Method where
  result : String := voidType
  params : List Parameter := []
  body : List String := []
deriving DecidableEq, Repr

/-- What a constructor has besides its name and modifiers. -/
structure Constructor where
  params : List Parameter := []
  body : List String := []
deriving DecidableEq, Repr

/-- The kind of a member, with what is particular to it. -/
inductive MemberKind where
  | field (f : Field)
  | property (p : Property)
  | method (m : Method)
  | constructor (c : Constructor)
deriving DecidableEq, Repr

/-- The word for a kind of member. -/
def MemberKind.word : MemberKind → String
  | field _ => "field"
  | property _ => "property"
  | method _ => "method"
  | constructor _ => "constructor"

/-- A member of a declaration. -/
structure Member where
  name : String
  visibility : Visibility := .priv
  isStatic : Bool := false
  isOverride : Bool := false
  special : Option Special := none
  kind : MemberKind
deriving DecidableEq, Repr

namespace Member

/-- The signature of a method or a constructor. -/
def signature? (m : Member) : Option Signature :=
  match m.kind with
  | .method method => some (Signature.of m.name method.params)
  | .constructor c => some (Signature.of m.name c.params)
  | .field _ | .property _ => none

/-- The member's property, if it is one. -/
def property? (m : Member) : Option Property :=
  match m.kind with
  | .property p => some p
  | _ => none

end Member

/-- A declaration of a class. -/
structure Decl where
  name : String
  visibility : Visibility := .pub
  special : Option Special := none
  container : Option String := none
  imports : List String := []
  bases : List String := []
  capabilities : OrderedSet String := {}
  members : List Member := []
deriving DecidableEq, Repr

namespace Decl

/-- Some member is a property. -/
def hasProperties (d : Decl) : Bool := d.members.any (·.property?.isSome)

/-- The signatures of the methods and constructors, in order. -/
def signatures (d : Decl) : List Signature := d.members.filterMap Member.signature?

/-- The base types and the capabilities, in order. -/
def parents (d : Decl) : List String := d.bases ++ d.capabilities.toList

end Decl

end ClassIdiom
