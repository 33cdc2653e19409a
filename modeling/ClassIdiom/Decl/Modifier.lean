import ClassIdiom.Failure
import ClassIdiom.Text.Basic

/-! # Modifiers of a declaration

The visibilities, special modifiers and mutabilities that a declaration may use. A visibility has
two spellings: the one shown to readers, in which compound visibilities are two words, and the key,
a single word in camel case. -/

namespace ClassIdiom

/-- Who may refer to a type or a member. -/
inductive Visibility where
  | pub
  | prot
  | priv
  | package
  | internal
  | protInternal
  | privProt
deriving DecidableEq, Repr

namespace Visibility

/-- The visibilities, in order. -/
def all : List Visibility := [pub, prot, priv, package, internal, protInternal, privProt]

/-- The spelling for readers. -/
def spelling : Visibility → String
  | pub => "public"
  | prot => "protected"
  | priv => "private"
  | package => "package"
  | internal => "internal"
  | protInternal => "protected internal"
  | privProt => "private protected"

/-- The spelling as a single word. -/
def key : Visibility → String
  | protInternal => "protectedInternal"
  | privProt => "privateProtected"
  | v => v.spelling

/-- The visibility with the given key. -/
def ofKey? (s : String) : Option Visibility := all.find? (·.key == s)

/-- The visibility with the given spelling, of either kind, blanks around it aside. -/
def parse (s : String) : Except Unrecognized Visibility :=
  match all.find? fun v => v.spelling == Text.trim s || v.key == Text.trim s with
  | some v => .ok v
  | none => .error (.visibility (Text.trim s))

theorem ofKey?_key (v : Visibility) : ofKey? v.key = some v := by cases v <;> decide

end Visibility

/-- A modifier that is no visibility. -/
inductive Special where
  | abstract
  | virtual
  | sealed
deriving DecidableEq, Repr

namespace Special

/-- The special modifiers, in order. -/
def all : List Special := [abstract, virtual, sealed]

/-- The spelling of a special modifier. -/
def spelling : Special → String
  | abstract => "abstract"
  | virtual => "virtual"
  | sealed => "sealed"

/-- The special modifier with the given spelling. -/
def ofSpelling? (s : String) : Option Special := all.find? (·.spelling == s)

theorem ofSpelling?_spelling (m : Special) : ofSpelling? m.spelling = some m := by
  cases m <;> decide

end Special

/-- Whether a field may change. -/
inductive Mutability where
  | mutable
  | readOnly
  | constant
deriving DecidableEq, Repr

namespace Mutability

/-- The mutabilities, in order. -/
def all : List Mutability := [mutable, readOnly, constant]

/-- The spelling of a mutability. -/
def spelling : Mutability → String
  | mutable => "mutable"
  | readOnly => "readOnly"
  | constant => "const"

/-- The mutability with the given spelling. -/
def ofSpelling? (s : String) : Option Mutability := all.find? (·.spelling == s)

theorem ofSpelling?_spelling (m : Mutability) : ofSpelling? m.spelling = some m := by
  cases m <;> decide

end Mutability

end ClassIdiom
