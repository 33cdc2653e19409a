import ClassIdiom.Decl.Basic

/-! # Building declarations

Functions that make members and change one aspect of a member or a declaration. A change that does
not apply to the kind of a member leaves the member as it is. -/

namespace ClassIdiom

namespace Member

/-- A private field. -/
def field (name type : String) : Member := { name, kind := .field { type } }

/-- A private property with a getter and a setter. -/
def property (name type : String) : Member :=
  { name, kind := .property { type, setter := some {} } }

/-- A private method without parameters and with an empty body. -/
def method (name result : String) : Member := { name, kind := .method { result } }

/-- A private constructor without parameters and with an empty body. -/
def constructor (name : String) : Member := { name, kind := .constructor {} }

/-- Changes what is particular to a field. -/
def mapField (f : Field → Field) (m : Member) : Member :=
  match m.kind with
  | .field x => { m with kind := .field (f x) }
  | _ => m

/-- Changes what is particular to a property. -/
def mapProperty (f : Property → Property) (m : Member) : Member :=
  match m.kind with
  | .property x => { m with kind := .property (f x) }
  | _ => m

/-- Changes what is particular to a method. -/
def mapMethod (f : Method → Method) (m : Member) : Member :=
  match m.kind with
  | .method x => { m with kind := .method (f x) }
  | _ => m

/-- Changes what is particular to a constructor. -/
def mapConstructor (f : Constructor → Constructor) (m : Member) : Member :=
  match m.kind with
  | .constructor x => { m with kind := .constructor (f x) }
  | _ => m

/-- Sets the initial value of a field or a property. -/
def withInitial (value : String) (m : Member) : Member :=
  (m.mapField fun x => { x with initial := some value }).mapProperty
    fun x => { x with initial := some value }

/-- Sets the mutability of a field. -/
def withMutability (mutability : Mutability) (m : Member) : Member :=
  m.mapField fun x => { x with mutability }

/-- Gives the getter of a property a visibility of its own. -/
def withGetter (v : Visibility) (m : Member) : Member :=
  m.mapProperty fun x => { x with getter := { visibility := some v } }

/-- Gives a property a setter with a visibility of its own. -/
def withSetter (v : Visibility) (m : Member) : Member :=
  m.mapProperty fun x => { x with setter := some { visibility := some v } }

/-- Takes the setter of a property away. -/
def readOnly (m : Member) : Member := m.mapProperty fun x => { x with setter := none }

/-- Adds a last parameter to a method or a constructor. -/
def withParam (name type : String) (m : Member) : Member :=
  (m.mapMethod fun x => { x with params := x.params ++ [{ name, type }] }).mapConstructor
    fun x => { x with params := x.params ++ [{ name, type }] }

/-- Sets the body of a method or a constructor. -/
def withBody (body : List String) (m : Member) : Member :=
  (m.mapMethod fun x => { x with body }).mapConstructor fun x => { x with body }

end Member

namespace Decl

/-- Adds a last import. -/
def importing (d : Decl) (path : String) : Decl := { d with imports := d.imports ++ [path] }

/-- Adds a last base type. -/
def extending (d : Decl) (base : String) : Decl := { d with bases := d.bases ++ [base] }

/-- Adds a capability, unless it is present. -/
def implementing (d : Decl) (capability : String) : Decl :=
  { d with capabilities := d.capabilities.insert capability }

/-- Adds a last member. -/
def declaring (d : Decl) (m : Member) : Decl := { d with members := d.members ++ [m] }

end Decl

end ClassIdiom
