/-! # Failures

A conversion goes through four stages and can fail at each. A failure names the type, the member if
there is one, and the cause; its text is given by one function.

The words for visibilities, access levels and targets form closed lists. A word outside its list is
reported as it was looked up: without blanks around it, and for a target in lower case. -/

namespace ClassIdiom

/-! ### Words -/

/-- A word outside its list. -/
inductive Unrecognized where
  | visibility (word : String)
  | access (word : String)
  | target (word : String)
deriving DecidableEq, Repr

/-- The text that reports an unrecognized word. -/
def Unrecognized.message : Unrecognized → String
  | visibility word => "unknown visibility '" ++ word ++ "'"
  | access word => "unknown access level '" ++ word ++ "'"
  | target word => "unknown target '" ++ word ++ "'. Expected 'java', 'cpp' or 'python'"

/-! ### Stages -/

/-- The stages of a conversion, in order. -/
inductive Stage where
  /-- Visibilities become access levels of the target. -/
  | mapping
  /-- Properties become fields and accessors. -/
  | expansion
  /-- Parents and overrides are resolved. -/
  | inheritance
  /-- The class is written out. -/
  | emission
deriving DecidableEq, Repr

namespace Stage

/-- The stages, in order. -/
def all : List Stage := [mapping, expansion, inheritance, emission]

/-- The name of a stage. -/
def name : Stage → String
  | mapping => "modifier mapping"
  | expansion => "property desugaring"
  | inheritance => "inheritance resolution"
  | emission => "member emission"

end Stage

/-- Why a declaration cannot be converted. -/
inductive Cause where
  /-- The target has no counterpart for a modifier. -/
  | unmappable (modifier : String)
  /-- A generated name is taken by something else. -/
  | collision (generated existing : String)
  /-- There is more than one base type. -/
  | multipleBases (bases : List String)
  /-- A type has no spelling in the target. -/
  | unknownType (source : String)
deriving DecidableEq, Repr

/-- A cause, with the type and the member it was found in. -/
structure Failure where
  typeName : String
  member : Option String
  cause : Cause
deriving DecidableEq, Repr

namespace Failure

/-- The type and the member, joined by a dot. -/
def place (f : Failure) : String :=
  match f.member with
  | some m => f.typeName ++ "." ++ m
  | none => f.typeName

/-- The text of a failure. Several base types are a fault of the type as a whole. -/
def message (f : Failure) : String :=
  match f.cause with
  | .unmappable modifier => f.place ++ ": no target modifier for `" ++ modifier ++ "`"
  | .collision generated existing =>
    f.place ++ ": generated name `" ++ generated ++ "` collides with existing " ++ existing
  | .multipleBases bases =>
    f.typeName ++ ": multiple base types are not supported (" ++ ", ".intercalate bases ++ ")"
  | .unknownType source => f.place ++ ": unknown type `" ++ source ++ "`"

end Failure

/-- A failure and the stage it happened at. -/
structure StageFailure where
  stage : Stage
  failure : Failure
deriving DecidableEq, Repr

/-- The text of a failure at a stage. -/
def StageFailure.message (f : StageFailure) : String :=
  f.stage.name ++ " failed: " ++ f.failure.message

end ClassIdiom
