import ClassIdiom.Decl.Basic
import ClassIdiom.Json.Numeral
import ClassIdiom.Json.Parser
import ClassIdiom.Json.Shape

/-! # Reading declarations

A declaration is a record; a field that has a default may be left out. A member is a flat object:
the modifiers are read as they come, all other entries are set aside and read once the kind of the
member is known. -/

namespace ClassIdiom

open Shape Reader

/-- The fields of a parameter. -/
def Parameter.shape : Shape Parameter :=
  Parameter.mk <$> required "name" string <*> required "type" string

/-- The fields of an accessor. -/
def Accessor.shape : Shape Accessor :=
  Accessor.mk <$> optional "visibility" (nullable (lateWord Visibility.ofKey?)) none

/-- The fields that are particular to a field. -/
def Field.shape : Shape Field :=
  Field.mk <$> required "type" string <*> optional "default" (nullable string) none <*>
    optional "mutability" (lateWord Mutability.ofSpelling?) .mutable

/-- The fields that are particular to a property. -/
def Property.shape : Shape Property :=
  Property.mk <$> required "type" string <*> optional "getter" Accessor.shape.read {} <*>
    optional "setter" (nullable Accessor.shape.read) none <*>
    optional "default" (nullable string) none

/-- The fields that are particular to a method. -/
def Method.shape : Shape Method :=
  Method.mk <$> optional "returnType" string voidType <*>
    optional "params" (list Parameter.shape.read) [] <*> optional "body" (list string) []

/-- The fields that are particular to a constructor. -/
def Constructor.shape : Shape Constructor :=
  Constructor.mk <$> optional "params" (list Parameter.shape.read) [] <*>
    optional "body" (list string) []

namespace MemberKind

/-- The kind with the given number or word, as a reader of the entries particular to it. -/
def readers : List (String × (List (String × Json) → Except ReadError MemberKind)) := [
  ("field", fun entries => (Field.shape.readEntries entries).map field),
  ("property", fun entries => (Property.shape.readEntries entries).map property),
  ("method", fun entries => (Method.shape.readEntries entries).map method),
  ("constructor", fun entries => (Constructor.shape.readEntries entries).map constructor)]

/-- A kind, as a word or as its number in the order of the kinds. -/
def readTag : Reader (List (String × Json) → Except ReadError MemberKind)
  | .str s => known (fun word => readers.lookup word) s
  | .num spelling =>
    match Json.intOfSpelling? spelling with
    | some (.ofNat n) =>
      match readers[n]? with
      | some r => .ok r.2
      | none => .error .shape
    | _ => .error .shape
  | _ => .error .shape

/-- Reads the kind of a member from the entries set aside. -/
def readEntries (entries : List (String × Json)) : Except ReadError MemberKind :=
  match entries.filter (·.1 == "kind") with
  | [] => .error (.missing "kind")
  | (_, tag) :: others => do
    let read ← readTag tag
    if others.isEmpty then read (entries.filter (·.1 != "kind")) else .error (.duplicate "kind")

end MemberKind

namespace Member

/-- The fields that all kinds of members have, short of the kind. -/
def shape : Shape (MemberKind → Member) :=
  Member.mk <$> required "name" string <*> optional "visibility" (word Visibility.ofKey?) .priv <*>
    optional "static" bool false <*> optional "override" bool false <*>
    optional "special" (nullable (word Special.ofSpelling?)) none

/-- Reads a member, which must be an object. -/
def read : Reader Member
  | .obj entries => do
    let common ← shape.readEntries (entries.filter (·.1 ∈ shape.keys))
    let kind ← MemberKind.readEntries (entries.filter (·.1 ∉ shape.keys))
    .ok (common kind)
  | _ => .error .shape

end Member

namespace Decl

/-- The fields of a declaration. -/
def shape : Shape Decl :=
  Decl.mk <$> required "name" string <*> optional "visibility" (word Visibility.ofKey?) .pub <*>
    optional "special" (nullable (word Special.ofSpelling?)) none <*>
    optional "container" (nullable string) none <*> optional "imports" (list string) [] <*>
    optional "baseTypes" (list string) [] <*>
    optional "capabilities" (OrderedSet.ofList <$> list string ·) {} <*>
    optional "members" (list Member.read) []

/-- Reads a declaration from JSON text. -/
def parse (text : String) : Except ReadError Decl :=
  match Json.parse? text with
  | some v => shape.read v
  | none => .error .malformed

end Decl

end ClassIdiom
