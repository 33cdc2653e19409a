import ClassIdiom.Decl.Modifier
import ClassIdiom.OrderedSet
import ClassIdiom.Table
import ClassIdiom.Text.Basic

/-! # Styles of writing a class

A style says how a target writes each part of a class. Formats are texts with holes, each written as
a pair of braces. -/

namespace ClassIdiom

/-- The order of a name and its type. -/
inductive DeclarationOrder where
  /-- The type, a blank and the name. -/
  | typeFirst
  /-- The name, a colon and the type. -/
  | nameFirst
deriving DecidableEq, Repr

/-- How access levels are written. -/
inductive AccessMarking where
  /-- As a keyword on every member. -/
  | keyword
  /-- As labels between members. -/
  | sections
  /-- Not at all. -/
  | implicit
deriving DecidableEq, Repr

/-- How static members are marked. -/
inductive StaticMarking where
  /-- By a keyword, one for methods and one for fields. -/
  | keyword (method field : String)
  /-- By a line above a method and a format around the type of a field. -/
  | decorated (decorator wrapper : String)
deriving DecidableEq, Repr

/-- How a static constructor is written. -/
inductive StaticInit where
  /-- As a block after a keyword. -/
  | block (keyword : String)
  /-- As lines in the body of the class. -/
  | classBody
  /-- Not at all. -/
  | unsupported
deriving DecidableEq, Repr

/-- How fields that do not change are marked. -/
inductive MutabilityMarking where
  /-- By a keyword for each mutability. -/
  | keyword (readOnly constant : String)
  /-- By a format around the type. -/
  | wrapped (format : String)
deriving DecidableEq, Repr

/-- How overriding members are marked. -/
inductive OverrideMarking where
  /-- By a line above the member. -/
  | above (text : String)
  /-- By a word after the parameters. -/
  | trailing (word : String)
deriving DecidableEq, Repr

/-- How parents are written. -/
inductive Heritage where
  /-- After a keyword for the base type and one for the capabilities. -/
  | keywords (base capabilities : String)
  /-- As one list after a colon, each parent after an access level if one is given. -/
  | baseList (access : Option String)
  /-- As one list in parentheses. -/
  | parenthesized
deriving DecidableEq, Repr

/-- How blocks are written. -/
inductive BlockStyle where
  /-- Between braces on lines of their own. -/
  | braces
  /-- By indentation after a colon, with a placeholder for an empty block. -/
  | indented (placeholder : String)
deriving DecidableEq, Repr

/-- The name that constructors are written with. -/
inductive ConstructorNaming where
  | typeName
  | fixed (name : String)
deriving DecidableEq, Repr

/-- How a type is written where a value is passed by reference. -/
structure ByReference where
  format : String
  /-- The types that are passed by value all the same. -/
  byValue : OrderedSet String
deriving DecidableEq, Repr

/-- The spelling of a type that is passed by reference. -/
def ByReference.apply (r : ByReference) (type : String) : String :=
  if type ∈ r.byValue then type else Text.fill r.format type

/-- How a special modifier is written: on a line above, before or after the rest. -/
structure SpecialForm where
  decorator : Option String := none
  before : Option String := none
  after : Option String := none
deriving DecidableEq, Repr

/-- How the container of a class is written. -/
inductive ContainerStyle where
  | omitted
  /-- As a line in the preamble. -/
  | statement (format separator : String)
  /-- As a block around the class. -/
  | block (format separator : String)
deriving DecidableEq, Repr

/-- An import that is made when the class uses one of the triggers. -/
structure AutoImport where
  path : String
  name : Option String
  triggers : List String
deriving DecidableEq, Repr

/-- What comes before a class in its file. -/
structure Preamble where
  header : List String := []
  container : ContainerStyle
  importFormat : String
  /-- What replaces the dots in the path of an import. -/
  importSeparator : String
  autoImports : List AutoImport := []
  /-- A format with holes named `module` and `names`. -/
  autoImportFormat : String
deriving DecidableEq, Repr

/-- How a target writes a class. -/
structure Style where
  order : DeclarationOrder
  access : AccessMarking
  statics : StaticMarking
  staticInit : StaticInit
  mutability : MutabilityMarking
  overrides : OverrideMarking
  heritage : Heritage
  blocks : BlockStyle
  /-- What ends a statement. -/
  terminator : String
  /-- The parameter through which a method refers to its object, if it is written. -/
  receiver : Option String
  methodKeyword : Option String
  constructorName : ConstructorNaming
  /-- Lines above every class. -/
  classDecorators : List String := []
  /-- What follows the closing brace of a class. -/
  classTerminator : String
  /-- The indentation of one level. -/
  indent : String
  byReference : Option ByReference
  methodForms : Table Special SpecialForm
  classForms : Table Special SpecialForm
  preamble : Preamble
deriving DecidableEq, Repr

end ClassIdiom
