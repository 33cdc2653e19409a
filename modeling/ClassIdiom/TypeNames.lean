import ClassIdiom.Profile.Basic

/-! # Spelling types

A type is spelled by the table of the profile; else, if it is an array, by the format of arrays
around the spelling of its element type; else as it is, if it is known. Blanks around a type do not
count, nor before the brackets of an array. -/

namespace ClassIdiom

/-- What is needed to spell types. -/
structure TypeNames where
  table : Table String String
  arrayFormat : String
  known : List String

namespace TypeNames

/-- The spellings of a profile, with further known types. -/
def of (p : Profile) (known : List String) : TypeNames where
  table := p.types
  arrayFormat := p.arrayFormat
  known := known ++ p.knownTypes.toList

/-- The layers of a type that is given backwards: the type, its element type if it is an array, and
so on, each without the blanks at its end. -/
def layersBackward : List Char → List (List Char)
  | [] => [[]]
  | ']' :: '[' :: cs => (']' :: '[' :: cs) :: layersBackward cs
  | c :: cs => if Text.isBlank c then layersBackward cs else [c :: cs]

/-- The layers of a type, outermost first, each without blanks around it. -/
def layers (type : String) : List String :=
  (layersBackward type.toList.reverse).map fun cs => String.ofList (Text.trimStart cs.reverse)

/-- The spelling of a type, from its layers. -/
def spellLayers (t : TypeNames) : List String → Option String
  | [] => none
  | type :: inner =>
    match t.table.get? type, inner with
    | some spelling, _ => some spelling
    | none, [] => if type ∈ t.known then some type else none
    | none, _ :: _ => (t.spellLayers inner).map (Text.fill t.arrayFormat)

/-- The spelling of a type in the target, if it has one. -/
def spell (t : TypeNames) (type : String) : Option String := t.spellLayers (layers type)

end TypeNames

end ClassIdiom
