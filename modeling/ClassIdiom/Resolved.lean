import ClassIdiom.Flat
import ClassIdiom.Hierarchy

/-! # Classes with resolved parents

The third stage allows at most one base type. If a hierarchy of known types is given, it also looks
for the ancestor that declares what a member overrides; whether one is found or not, the member
stays marked. -/

namespace ClassIdiom

/-- A class that is ready to be written. -/
structure Resolved where
  name : String
  access : Access
  special : Option Special
  container : Option String
  imports : List String
  base : Option String
  capabilities : List String
  members : List FlatMember
deriving DecidableEq, Repr

/-- The base type and the capabilities, in order. -/
def Resolved.parents (c : Resolved) : List String := c.base.toList ++ c.capabilities

namespace Hierarchy

/-- Looks for the ancestor that declares what a member overrides. -/
def confirm {ε : Type} (h : Option Hierarchy) (typeName : String) (parents : List String)
    (s : Signature) : Logged ε OverrideSource :=
  match h with
  | none => pure .declared
  | some h =>
    match h.declaring? parents s with
    | some ancestor => do
      Logged.log (.overrideConfirmed typeName s ancestor)
      pure (.confirmed ancestor)
    | none => do
      Logged.log (.overrideUnconfirmed typeName s)
      pure .declared

/-- Confirms the mark of an overriding member, if it has one. -/
def confirmMark {ε : Type} (h : Option Hierarchy) (typeName : String) (parents : List String)
    (s : Signature) : Option OverrideSource → Logged ε (Option OverrideSource)
  | none => pure none
  | some _ => some <$> confirm h typeName parents s

/-- Confirms what a member overrides. -/
def confirmMember {ε : Type} (h : Option Hierarchy) (typeName : String) (parents : List String) :
    FlatMember → Logged ε FlatMember
  | .field f => pure (.field f)
  | .method m => do
    let overrides ← confirmMark h typeName parents m.signature m.overrides
    pure (.method { m with overrides })
  | .constructor c => do
    let overrides ← confirmMark h typeName parents c.signature c.overrides
    pure (.constructor { c with overrides })

end Hierarchy

/-- Resolves the parents of a class and what its members override. -/
def Flat.resolved (f : Flat) (h : Option Hierarchy) : Logged Failure Resolved := do
  Logged.require (f.bases.length ≤ 1) ⟨f.name, none, .multipleBases f.bases⟩
  let parents := f.bases ++ f.capabilities
  let members ← f.members.mapM (Hierarchy.confirmMember h f.name parents)
  pure {
    name := f.name
    access := f.access
    special := f.special
    container := f.container
    imports := f.imports
    base := f.bases.head?
    capabilities := f.capabilities
    members }

end ClassIdiom
