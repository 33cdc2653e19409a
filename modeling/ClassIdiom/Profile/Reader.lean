import ClassIdiom.Json.Numeral
import ClassIdiom.Json.Parser
import ClassIdiom.Profile.Overlay

/-! # Reading overlays

An overlay is written as a JSON record. A truth value may also be written as a number or a word. -/

namespace ClassIdiom

open Shape Reader

namespace Reader

/-- A map from texts to texts; of a repeated key the last value counts, at the first place. -/
def stringMap : Reader (Table String String)
  | .obj entries => do
    let pairs ← entries.mapM fun e => (string e.2).map fun v => (e.1, v)
    .ok (Table.ofList pairs)
  | _ => .error .shape

/-- The truth value that a word stands for, in any case and blanks around it aside. -/
def switchWord (s : String) : Except ReadError Bool :=
  let word := Text.lowercase (Text.trim s)
  if word ∈ ["true", "1", "yes", "on"] then .ok true
  else if word ∈ ["false", "0", "no", "off"] then .ok false
  else .error (.notBooleanWord s)

/-- The integer has a signed word of 64 bits. -/
def fitsWord (n : Int) : Bool := -Int.pow 2 63 ≤ n && n < Int.pow 2 63

/-- The truth value that an integer stands for. -/
def switchInt (n : Int) : Except ReadError Bool :=
  if n = 1 then .ok true else if n = 0 then .ok false else .error (.notBoolean n)

/-- A truth value, as such, as a number or as a word. -/
def switch : Reader Bool
  | .bool b => .ok b
  | .num spelling =>
    match (Json.intOfSpelling? spelling).filter fitsWord with
    | some n => switchInt n
    | none => .error .notSwitch
  | .str s => switchWord s
  | _ => .error .notSwitch

end Reader

/-- Reads a fallback: a word, or an object that gives a fixed level. -/
def FallbackChoice.read : Reader FallbackChoice
  | .obj [("fixed", .str level)] => .ok (.fixed level)
  -- A fixed level needs a value, which is a text, and nothing beside it.
  | .str "fixed" | .obj (("fixed", _) :: _) => .error .shape
  | v => word (fun s => if s = "private" then some .priv else if s = "reject" then some .reject
      else none) v

/-- The fields of the rules for names. -/
def NamingOverlay.shape : Shape NamingOverlay :=
  NamingOverlay.mk <$> optional "backingFieldPrefix" (nullable string) none <*>
    optional "backingFieldSuffix" (nullable string) none <*>
    optional "lowerFirstBackingField" (nullable switch) none <*>
    optional "getterPrefix" (nullable string) none <*>
    optional "setterPrefix" (nullable string) none <*>
    optional "methodCase" (nullable string) none

namespace Overlay

/-- The fields of an overlay. -/
def shape : Shape Overlay :=
  Overlay.mk <$> required "target" string <*> optional "typeMap" stringMap {} <*>
    optional "knownTypes" (list string) [] <*> optional "visibility" stringMap {} <*>
    optional "fallback" (nullable FallbackChoice.read) none <*>
    optional "naming" (nullable NamingOverlay.shape.read) none

/-- Reads an overlay from JSON text. -/
def parse (text : String) : Except OverlayError Overlay :=
  match Json.parse? text with
  | some v => (shape.read v).mapError .unreadable
  | none => .error (.unreadable .malformed)

end Overlay

/-- The profile that a JSON text describes. -/
def Profile.parse (text : String) : Except OverlayError Profile := do
  let o ← Overlay.parse text
  o.apply

/-- What is reported when a file gives no profile, from the outermost context to the cause. -/
def OverlayError.chainIn (path : String) : OverlayError → List String
  | .unreadable error => ("in " ++ path) :: (unreadable error).chain
  | error => ("invalid profile configuration: " ++ path) :: error.chain

/-- The profile that the bytes of a file describe, or what is reported. A file that cannot be read,
or is no text, is given as `none`. -/
def Profile.load (path : String) (content : Option String) : Except (List String) Profile :=
  match content with
  | none => .error ["failed to read profile configuration: " ++ path]
  | some text => (Profile.parse text).mapError (OverlayError.chainIn path)

end ClassIdiom
