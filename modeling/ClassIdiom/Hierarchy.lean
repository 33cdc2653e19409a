import ClassIdiom.Decl.Basic
import ClassIdiom.Table

/-! # Hierarchies of known types

A hierarchy records, for the types that are known, their parents and the signatures that they
declare. The search for the nearest ancestor with a signature goes through the parents breadth
first. Each type is taken out of the hierarchy when it is visited, so the search ends also where
the parents run in a circle. -/

namespace ClassIdiom

/-- What is known of a type. -/
structure KnownType where
  parents : List String := []
  signatures : List Signature := []
deriving DecidableEq, Repr

/-- The known types, by name. -/
structure Hierarchy where
  types : Table String KnownType := {}
deriving DecidableEq, Repr

namespace Hierarchy

/-- What is known of the type with a name. -/
def known (h : Hierarchy) (name : String) : KnownType := (h.types.get? name).getD {}

/-- Something is known of the type with a name. -/
def contains (h : Hierarchy) (name : String) : Bool := h.types.contains name

/-- Adds what a declaration says of its type to what is known. -/
def insert (h : Hierarchy) (d : Decl) : Hierarchy where
  types := h.types.insert d.name {
    parents := (h.known d.name).parents ++ d.parents
    signatures := (h.known d.name).signatures ++ d.signatures }

/-- Adds a signature to what is known of a type. -/
def insertSignature (h : Hierarchy) (name : String) (s : Signature) : Hierarchy where
  types := h.types.insert name {
    h.known name with signatures := (h.known name).signatures ++ [s] }

/-- The hierarchy that declarations make up. -/
def ofDecls (decls : List Decl) : Hierarchy := decls.foldl insert {}

/-- The first type of the queue, or the first found behind it, that declares a signature. -/
def search (s : Signature) (unvisited : Table String KnownType) (queue : List String) :
    Option String :=
  match queue with
  | [] => none
  | name :: rest =>
    match _h : unvisited.get? name with
    | none => search s unvisited rest
    | some known =>
      if s ∈ known.signatures then some name
      else search s (unvisited.erase name) (rest ++ known.parents)
termination_by (unvisited.size, queue.length)
decreasing_by
  · exact Prod.Lex.right _ (Nat.lt_succ_self _)
  · exact Prod.Lex.left _ _ (Table.size_erase_lt _h)

/-- The nearest ancestor that declares a signature, starting from the given parents. -/
def declaring? (h : Hierarchy) (parents : List String) (s : Signature) : Option String :=
  search s h.types parents

end Hierarchy

end ClassIdiom
