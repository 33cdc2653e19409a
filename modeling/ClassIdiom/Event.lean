import ClassIdiom.Decl.Basic
import ClassIdiom.Failure
import ClassIdiom.Profile.Access

/-! # Events

What a conversion reports while it runs. An event has a level, a message and named details, which
are texts or truth values. -/

namespace ClassIdiom

/-- Something that happened during a conversion. -/
inductive Event where
  /-- A visibility is not in the table of a target. -/
  | fallbackUsed (target : Target) (visibility : Visibility) (level : Option Access)
  /-- A property was replaced by its accessors. -/
  | propertyExpanded (typeName property backingField : String) (readOnly isAbstract : Bool)
  /-- A known ancestor declares what a member overrides. -/
  | overrideConfirmed (typeName : String) (signature : Signature) (ancestor : String)
  /-- No known ancestor declares what a member overrides. -/
  | overrideUnconfirmed (typeName : String) (signature : Signature)
  /-- A stage succeeded. -/
  | stageComplete (typeName : String) (stage : Stage)
deriving DecidableEq, Repr

/-- How much an event matters. -/
inductive EventLevel where
  | trace
  | debug
deriving DecidableEq, Repr

/-- The name of a level. -/
def EventLevel.name : EventLevel → String
  | trace => "TRACE"
  | debug => "DEBUG"

/-- A detail of an event. -/
inductive Detail where
  | text (s : String)
  | flag (b : Bool)
deriving DecidableEq, Repr

namespace Event

/-- How much an event matters. -/
def level : Event → EventLevel
  | fallbackUsed .. | propertyExpanded .. | overrideConfirmed .. => .trace
  | overrideUnconfirmed .. | stageComplete .. => .debug

/-- What happened, in words. -/
def message : Event → String
  | fallbackUsed .. => "modifier not in table, applying fallback"
  | propertyExpanded .. => "desugared property"
  | overrideConfirmed .. => "override confirmed"
  | overrideUnconfirmed .. => "no known ancestor declares overridden signature; keeping IR flag"
  | stageComplete .. => "stage complete"

/-- The outcome of a fallback, as it is reported. -/
def outcome : Option Access → String
  | none => "None"
  | some .pub => "Some(Public)"
  | some .prot => "Some(Protected)"
  | some .priv => "Some(Private)"
  | some .package => "Some(Package)"

/-- The named details of an event. -/
def details : Event → List (String × Detail)
  | fallbackUsed target visibility level => [
      ("target_lang", .text target.name), ("modifier", .text visibility.spelling),
      ("fallback", .text (outcome level))]
  | propertyExpanded typeName property backingField readOnly isAbstract => [
      ("type_name", .text typeName), ("property", .text property),
      ("backing_field", .text backingField), ("read_only", .flag readOnly),
      ("is_abstract", .flag isAbstract)]
  | overrideConfirmed typeName signature ancestor => [
      ("type_name", .text typeName), ("signature", .text signature.spelling),
      ("ancestor", .text ancestor)]
  | overrideUnconfirmed typeName signature =>
    [("type_name", .text typeName), ("signature", .text signature.spelling)]
  | stageComplete typeName stage => [("type_name", .text typeName), ("stage", .text stage.name)]

end Event

end ClassIdiom
