import ClassIdiom.Profile.Access
import ClassIdiom.Profile.Style

/-! # Profiles

A profile describes one target: its tables of access levels and types, its rules for names and its
style. -/

namespace ClassIdiom

/-! ### Names of generated members

A property becomes a backing field and accessors, whose names are made from the name of the
property. Methods keep their names but may get a lower-case first letter. -/

/-- What becomes of the first letter of a method. -/
inductive MethodCase where
  | preserve
  | lowerCamel
deriving DecidableEq, Repr

/-- The rules for names. -/
structure Naming where
  /-- What comes before the property in the name of its backing field. -/
  fieldPrefix : String := ""
  /-- What comes after the property in the name of its backing field. -/
  fieldSuffix : String := "BackingField"
  /-- The property starts with a lower-case letter in the name of its backing field. -/
  lowerField : Bool := true
  getterPrefix : String := "get"
  setterPrefix : String := "set"
  /-- The parameter of a setter. -/
  setterParam : String := "value"
  methodCase : MethodCase := .lowerCamel
deriving DecidableEq, Repr

namespace Naming

/-- The name of the backing field of a property. -/
def backingField (n : Naming) (property : String) : String :=
  n.fieldPrefix ++ (if n.lowerField then Text.lowerFirst property else property) ++ n.fieldSuffix

/-- The name of the getter of a property. -/
def getter (n : Naming) (property : String) : String := n.getterPrefix ++ property

/-- The name of the setter of a property. -/
def setter (n : Naming) (property : String) : String := n.setterPrefix ++ property

/-- The name of a method in the target. -/
def method (n : Naming) (name : String) : String :=
  match n.methodCase with
  | .preserve => name
  | .lowerCamel => Text.lowerFirst name

end Naming

/-! ### Targets as a whole -/

/-- All that a conversion needs to know about a target. -/
structure Profile where
  target : Target
  visibility : Table Visibility Access
  fallback : Fallback
  /-- The spellings of types. -/
  types : Table String String
  /-- The format of an array type around the type of its elements. -/
  arrayFormat : String
  /-- Types that are spelled alike in the target. -/
  knownTypes : OrderedSet String
  naming : Naming
  style : Style
  fileExtension : String
deriving DecidableEq, Repr

/-- The access level of a visibility: by the table, or else by the fallback. -/
def Profile.access? (p : Profile) (v : Visibility) : Option Access :=
  (p.visibility.get? v).or p.fallback.level?

end ClassIdiom
