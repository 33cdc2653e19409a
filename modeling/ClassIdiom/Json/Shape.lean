import ClassIdiom.Json.Basic

/-! # Reading records

A record is read from an object or from an array of its fields in order. A `Shape` lists the fields
of a record, how each value is read, and how the record is built. Reading an object goes through
its entries in order and stops at the first that is unknown, repeated or badly shaped; only then
missing fields are reported, in the order of the fields. -/

namespace ClassIdiom

/-- Why a JSON text could not be read. -/
inductive ReadError where
  /-- The text is no JSON text. -/
  | malformed
  /-- A required field is missing. -/
  | missing (field : String)
  /-- A field that the record does not have. -/
  | unknown (field : String)
  /-- A field that was given before. -/
  | duplicate (field : String)
  /-- A word outside a closed list of words. -/
  | unknownWord (word : String)
  /-- A value of the wrong type, length or range. -/
  | shape
  /-- An integer in place of a truth value. -/
  | notBoolean (n : Int)
  /-- A word in place of a truth value. -/
  | notBooleanWord (word : String)
  /-- A value that can be no truth value at all. -/
  | notSwitch
deriving DecidableEq, Repr

/-- The text of a reading error. -/
def ReadError.message : ReadError → String
  | malformed => "json syntax"
  | missing field => "missing field `" ++ field ++ "`"
  | unknown field => "unknown field `" ++ field ++ "`"
  | duplicate field => "duplicate field `" ++ field ++ "`"
  | unknownWord word => "unknown variant `" ++ word ++ "`"
  | shape => "invalid shape"
  | notBoolean n => "invalid boolean value: " ++ toString n ++ ". Expected true, false, 0 or 1"
  | notBooleanWord word =>
    "invalid boolean value: '" ++ word ++ "'. Expected true, false, 'true', or 'false'"
  | notSwitch => "data did not match any variant of untagged enum BoolOrString"

/-- A way to read a value of a type. -/
abbrev Reader (α : Type) := Json → Except ReadError α

namespace Reader

/-- A text. -/
def string : Reader String
  | .str s => .ok s
  | _ => .error .shape

/-- A truth value. -/
def bool : Reader Bool
  | .bool b => .ok b
  | _ => .error .shape

/-- An array of values. -/
def list {α : Type} (item : Reader α) : Reader (List α)
  | .arr items => items.mapM item
  | _ => .error .shape

/-- A value or null. -/
def nullable {α : Type} (read : Reader α) : Reader (Option α)
  | .null => .ok none
  | v => (read v).map some

/-- A word of a closed list. -/
def known {α : Type} (ofWord? : String → Option α) (word : String) : Except ReadError α :=
  match ofWord? word with
  | some a => .ok a
  | none => .error (.unknownWord word)

/-- A word of a closed list, as a text or as the only key of an object whose value is null. -/
def word {α : Type} (ofWord? : String → Option α) : Reader α
  | .str s => known ofWord? s
  | .obj ((key, v) :: rest) => do
    let a ← known ofWord? key
    match v, rest with
    | .null, [] => .ok a
    | _, _ => .error .shape
  | _ => .error .shape

/-- Like `word`, for a value that is read after the object around it: the object must have one key
before the key is looked at, and its value may also be an empty object. -/
def lateWord {α : Type} (ofWord? : String → Option α) : Reader α
  | .str s => known ofWord? s
  | .obj [(key, v)] => do
    let a ← known ofWord? key
    match v with
    | .null | .obj [] => .ok a
    | _ => .error .shape
  | _ => .error .shape

end Reader

/-- The fields of a record. -/
structure Shape (α : Type) where
  /-- The names of the fields, in order. -/
  keys : List String
  /-- Whether the value of a field can be read. -/
  check : String → Json → Except ReadError Unit
  /-- The record, from the values given. -/
  build : (String → Option Json) → Except ReadError α

namespace Shape

variable {α β : Type}

/-- A field that must be given. -/
def required (key : String) (read : Reader α) : Shape α where
  keys := [key]
  check _ v := (read v).map fun _ => ()
  build values :=
    match values key with
    | some v => read v
    | none => .error (.missing key)

/-- A field with a default. -/
def optional (key : String) (read : Reader α) (default : α) : Shape α where
  keys := [key]
  check _ v := (read v).map fun _ => ()
  build values :=
    match values key with
    | some v => read v
    | none => .ok default

instance : Applicative Shape where
  map f s := { s with build := fun values => (s.build values).map f }
  pure a :=
    { keys := []
      check := fun _ _ => .ok ()
      build := fun _ => .ok a }
  seq f x :=
    { keys := f.keys ++ (x ()).keys
      check := fun key v => if key ∈ f.keys then f.check key v else (x ()).check key v
      build := fun values => do
        let g ← f.build values
        let a ← (x ()).build values
        .ok (g a) }

/-- Goes through the entries of an object, in which the keys `seen` were met before. -/
def checkEntries (s : Shape α) : List String → List (String × Json) → Except ReadError Unit
  | _, [] => .ok ()
  | seen, (key, v) :: rest => do
    if key ∉ s.keys then .error (.unknown key)
    else if key ∈ seen then .error (.duplicate key)
    else
      s.check key v
      s.checkEntries (key :: seen) rest

/-- Goes through the items of an array, for the fields that are left. -/
def checkItems (s : Shape α) : List String → List Json → Except ReadError Unit
  | _, [] => .ok ()
  | [], _ :: _ => .error .shape
  | key :: keys, v :: rest => do
    s.check key v
    s.checkItems keys rest

/-- The record that the entries of an object give. -/
def readEntries (s : Shape α) (entries : List (String × Json)) : Except ReadError α := do
  s.checkEntries [] entries
  s.build (fun key => entries.lookup key)

/-- The record that the items of an array give; an array is too short where an object would lack a
field. -/
def readItems (s : Shape α) (items : List Json) : Except ReadError α := do
  s.checkItems s.keys items
  match s.build (fun key => (s.keys.zip items).lookup key) with
  | .error (.missing _) => .error .shape
  | r => r

/-- The record that a value gives. -/
def read (s : Shape α) : Reader α
  | .obj entries => s.readEntries entries
  | .arr items => s.readItems items
  | _ => .error .shape

end Shape

end ClassIdiom
