import ClassIdiom.Json.Token

/-! # JSON values

The tree of a JSON text. An object keeps its entries as written, in order and with repeated keys,
and a number keeps its spelling: readers of records decide what a repeated key or a number means.

The compact text of a value is made of the spellings of its tokens, with nothing in between. -/

namespace ClassIdiom

/-- A JSON value. -/
inductive Json where
  | null
  | bool (b : Bool)
  | num (spelling : String)
  | str (s : String)
  | arr (items : List Json)
  | obj (entries : List (String × Json))

namespace Json

instance : Inhabited Json := ⟨null⟩

/-- The value of the first entry under a key. -/
def get? : Json → String → Option Json
  | obj entries, key => entries.lookup key
  | _, _ => none

/-- An integer, in decimal digits. -/
def int (n : Int) : Json := num (toString n)

/-- A list of texts. -/
def strs (l : List String) : Json := arr (l.map str)

/-- A value that may be missing, which is written as null. -/
def opt {α : Type} (write : α → Json) : Option α → Json
  | none => null
  | some a => write a

/-! ### Writing -/

mutual

/-- The tokens of a value. -/
def tokens : Json → List Token
  | null => [.null]
  | bool b => [.bool b]
  | num spelling => [.num spelling]
  | str s => [.str s]
  | arr [] => [.openArray, .closeArray]
  | arr (item :: items) => .openArray :: tokens item ++ itemTokens items
  | obj [] => [.openObject, .closeObject]
  | obj ((k, v) :: entries) => .openObject :: .str k :: .colon :: tokens v ++ entryTokens entries

/-- The tokens of the items after the first, and the closing bracket. -/
def itemTokens : List Json → List Token
  | [] => [.closeArray]
  | item :: items => .comma :: tokens item ++ itemTokens items

/-- The tokens of the entries after the first, and the closing brace. -/
def entryTokens : List (String × Json) → List Token
  | [] => [.closeObject]
  | (k, v) :: entries => .comma :: .str k :: .colon :: tokens v ++ entryTokens entries

end

/-- The compact text of a value. -/
def compress (v : Json) : String := String.ofList (v.tokens.flatMap Token.spell)

end Json

end ClassIdiom
