import ClassIdiom.Failure
import ClassIdiom.Text.Lowercase

/-! # Targets and their access levels

The languages that classes are written in, and the access levels that they tell apart. -/

namespace ClassIdiom

/-- A language to write classes in. -/
inductive Target where
  | java
  | cpp
  | python
deriving DecidableEq, Repr

namespace Target

/-- The name of a target. -/
def name : Target → String
  | java => "java"
  | cpp => "cpp"
  | python => "python"

/-- The target that a word stands for, in any case and blanks around it aside. -/
def parse (s : String) : Except Unrecognized Target :=
  let word := Text.lowercase (Text.trim s)
  if word = "java" then .ok java
  else if word = "cpp" ∨ word = "c++" then .ok cpp
  else if word = "python" ∨ word = "py" then .ok python
  else .error (.target word)

end Target

/-- An access level. The level of a package is the one without a keyword. -/
inductive Access where
  | pub
  | prot
  | priv
  | package
deriving DecidableEq, Repr

namespace Access

/-- The levels, in order. -/
def all : List Access := [pub, prot, priv, package]

/-- The name of a level. -/
def name : Access → String
  | pub => "public"
  | prot => "protected"
  | priv => "private"
  | package => "package"

/-- The keyword of a level, if it has one. -/
def keyword? : Access → Option String
  | package => none
  | a => some a.name

/-- The level with the given name, blanks around it aside. -/
def parse (s : String) : Except Unrecognized Access :=
  match all.find? fun a => a.name == Text.trim s with
  | some a => .ok a
  | none => .error (.access (Text.trim s))

end Access

/-- What becomes of a visibility that has no access level of its own. -/
inductive Fallback where
  | priv
  | fixed (level : Access)
  | reject
deriving DecidableEq, Repr

/-- The level that stands in, if any. -/
def Fallback.level? : Fallback → Option Access
  | priv => some .priv
  | fixed level => some level
  | reject => none

end ClassIdiom
