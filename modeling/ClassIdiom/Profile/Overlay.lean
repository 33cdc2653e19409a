import ClassIdiom.Json.Shape
import ClassIdiom.Profile.BuiltIn

/-! # Overlays

An overlay names a target and changes parts of its built-in profile: it adds spellings and known
types, sets access levels and the fallback, and replaces rules for names. An overlay that leaves
names ambiguous or asks for a level that the target cannot write is refused. -/

namespace ClassIdiom

/-- The fallback that an overlay asks for. -/
inductive FallbackChoice where
  | priv
  | reject
  | fixed (level : String)
deriving DecidableEq, Repr

/-- The rules for names that an overlay replaces. -/
structure NamingOverlay where
  fieldPrefix : Option String := none
  fieldSuffix : Option String := none
  lowerField : Option Bool := none
  getterPrefix : Option String := none
  setterPrefix : Option String := none
  methodCase : Option String := none
deriving DecidableEq, Repr

/-- Changes to a built-in profile. -/
structure Overlay where
  target : String
  typeMap : Table String String := {}
  knownTypes : List String := []
  visibility : Table String String := {}
  fallback : Option FallbackChoice := none
  naming : Option NamingOverlay := none
deriving DecidableEq, Repr

/-- Why an access level cannot be used. -/
inductive LevelError where
  | unrecognized (word : Unrecognized)
  /-- The target cannot write the level of a package. -/
  | unspelled (target : Target)
deriving DecidableEq, Repr

/-- Why an overlay is refused. -/
inductive OverlayError where
  | unreadable (error : ReadError)
  | target (word : Unrecognized)
  | visibilityKey (key : String) (word : Unrecognized)
  | visibilityLevel (key : String) (error : LevelError)
  | fallbackLevel (error : LevelError)
  | methodCase (word : String)
  /-- The backing field would be named like its property. -/
  | bareField
  /-- An accessor would be named like its property. -/
  | bareAccessor
  /-- The accessors would share a name. -/
  | sameAccessors
deriving DecidableEq, Repr

/-- The text for an access level that cannot be used. -/
def LevelError.message : LevelError → String
  | unrecognized word => word.message
  | unspelled target =>
    "access level 'package' has no spelling for target '" ++ target.name ++ "'"

/-- What is reported for an overlay that is refused, from the outermost context to the cause. -/
def OverlayError.chain : OverlayError → List String
  | unreadable error => ["failed to parse profile configuration", error.message]
  | target word => [word.message]
  | visibilityKey key word => ["invalid visibility key '" ++ key ++ "'", word.message]
  | visibilityLevel key error => ["invalid visibility." ++ key, error.message]
  | fallbackLevel error => ["invalid fallback.fixed", error.message]
  | methodCase word => ["unsupported naming.methodCase '" ++ word ++ "'"]
  | bareField =>
    ["naming.backingFieldPrefix and naming.backingFieldSuffix cannot both be empty"]
  | bareAccessor => ["naming.getterPrefix and naming.setterPrefix cannot be empty"]
  | sameAccessors => ["naming.getterPrefix and naming.setterPrefix must differ"]

/-- The level with the given name, if the profile can write it. -/
def Profile.level (p : Profile) (name : String) : Except LevelError Access :=
  match Access.parse name with
  | .error word => .error (.unrecognized word)
  | .ok .package =>
    if p.style.access = .keyword then .ok .package else .error (.unspelled p.target)
  | .ok level => .ok level

/-- The rule for the first letter of methods with the given name. -/
def MethodCase.parse (word : String) : Except OverlayError MethodCase :=
  if word = "preserve" then .ok .preserve
  else if word = "lowerCamel" then .ok .lowerCamel
  else .error (.methodCase word)

/-- The rules for names after an overlay, before they are judged. -/
def NamingOverlay.applyTo (o : NamingOverlay) (n : Naming) : Except OverlayError Naming := do
  let methodCase ← match o.methodCase with
    | some word => MethodCase.parse word
    | none => .ok n.methodCase
  .ok { n with
    fieldPrefix := o.fieldPrefix.getD n.fieldPrefix
    fieldSuffix := o.fieldSuffix.getD n.fieldSuffix
    lowerField := o.lowerField.getD n.lowerField
    getterPrefix := o.getterPrefix.getD n.getterPrefix
    setterPrefix := o.setterPrefix.getD n.setterPrefix
    methodCase }

/-- The rules for names keep a property, its backing field and its accessors apart. -/
def Naming.judge (n : Naming) : Except OverlayError Unit :=
  if n.fieldPrefix = "" ∧ n.fieldSuffix = "" then .error .bareField
  else if n.getterPrefix = "" ∨ n.setterPrefix = "" then .error .bareAccessor
  else if n.getterPrefix = n.setterPrefix then .error .sameAccessors
  else .ok ()

namespace Overlay

/-- Sets the access level of one visibility. -/
def setVisibility (p : Profile) (entry : String × String) : Except OverlayError Profile :=
  match Visibility.parse entry.1 with
  | .error word => .error (.visibilityKey entry.1 word)
  | .ok v =>
    match p.level entry.2 with
    | .error e => .error (.visibilityLevel entry.1 e)
    | .ok level => .ok { p with visibility := p.visibility.insert v level }

/-- Sets the fallback. -/
def setFallback (p : Profile) : Option FallbackChoice → Except OverlayError Profile
  | none | some .priv => .ok p
  | some .reject => .ok { p with fallback := .reject }
  | some (.fixed name) =>
    match p.level name with
    | .error e => .error (.fallbackLevel e)
    | .ok level => .ok { p with fallback := .fixed level }

/-- Replaces rules for names. -/
def setNaming (p : Profile) : Option NamingOverlay → Except OverlayError Profile
  | none => .ok p
  | some o => do
    let naming ← o.applyTo p.naming
    naming.judge
    .ok { p with naming }

/-- The built-in profile of the target with the changes made. -/
def apply (o : Overlay) : Except OverlayError Profile := do
  let target ← (Target.parse o.target).mapError .target
  let base := Profile.builtIn target
  let p := { base with
    types := base.types.insertAll o.typeMap.entries
    knownTypes := base.knownTypes.insertAll o.knownTypes }
  let p ← o.visibility.entries.foldlM setVisibility p
  let p ← setFallback p o.fallback
  setNaming p o.naming

end Overlay

end ClassIdiom
