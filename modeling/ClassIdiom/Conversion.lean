import ClassIdiom.SourceFile

/-! # Conversions

A conversion takes a declaration through the four stages to a source file. It can be run stage by
stage, on a `Phase` that says how far it has come, or at once. -/

namespace ClassIdiom

/-- What a conversion is made with. -/
structure Converter where
  profile : Profile
  /-- Known types in which overridden members are looked up. -/
  hierarchy : Option Hierarchy := none
  /-- Types that are spelled alike in the target, besides those of the profile. -/
  known : List String := []

/-- How far a conversion has come. -/
inductive Phase where
  | loaded (d : Decl)
  | mapped (m : Mapped)
  | flat (f : Flat)
  | resolved (c : Resolved)
  | emitted (file : SourceFile)

namespace Phase

/-- The name of the type. -/
def typeName : Phase → String
  | loaded d => d.name
  | mapped m => m.name
  | flat f => f.name
  | resolved c => c.name
  | emitted file => file.name

/-- The stage that comes next, if any. -/
def next? : Phase → Option Stage
  | loaded _ => some .mapping
  | mapped _ => some .expansion
  | flat _ => some .inheritance
  | resolved _ => some .emission
  | emitted _ => none

/-- The conversion is done. -/
def isTerminal (p : Phase) : Bool := p.next?.isNone

end Phase

/-- Runs a stage: its failure is marked with the stage, its success reported. -/
def Stage.run {α : Type} (s : Stage) (typeName : String) (x : Logged Failure α) :
    Logged StageFailure α := do
  let a ← x.mapError (⟨s, ·⟩)
  Logged.log (.stageComplete typeName s)
  pure a

namespace Converter

/-- The types that a class may mention, its own name and parents among them. -/
def typeNames (t : Converter) (c : Resolved) : TypeNames :=
  TypeNames.of t.profile (t.known ++ c.name :: c.parents)

/-- Writes the file of a class. -/
def emit (t : Converter) (c : Resolved) : Except Failure SourceFile := do
  let layout : Layout := { style := t.profile.style, types := t.typeNames c, className := "" }
  let text ← layout.fileText c
  .ok { name := c.name, stem := c.name, extension := t.profile.fileExtension, text }

/-- The first stage. -/
def map (t : Converter) (d : Decl) : Logged StageFailure Mapped :=
  Stage.mapping.run d.name (d.mapped t.profile)

/-- The second stage. -/
def flatten (t : Converter) (m : Mapped) : Logged StageFailure Flat :=
  Stage.expansion.run m.name (Mapped.flattened m t.profile.naming)

/-- The third stage. -/
def resolve (t : Converter) (f : Flat) : Logged StageFailure Resolved :=
  Stage.inheritance.run f.name (Flat.resolved f t.hierarchy)

/-- The last stage. -/
def write (t : Converter) (c : Resolved) : Logged StageFailure SourceFile :=
  Stage.emission.run c.name (Logged.ofExcept (t.emit c))

/-- Runs the next stage, if there is one. -/
def advance (t : Converter) : Phase → Logged StageFailure Phase
  | .loaded d => .mapped <$> t.map d
  | .mapped m => .flat <$> t.flatten m
  | .flat f => .resolved <$> t.resolve f
  | .resolved c => .emitted <$> t.write c
  | .emitted file => pure (.emitted file)

/-- Runs all stages. -/
def convert (t : Converter) (d : Decl) : Logged StageFailure SourceFile := do
  let m ← t.map d
  let f ← t.flatten m
  let c ← t.resolve f
  t.write c

end Converter

/-- The source file of a declaration, with nothing known but the profile. -/
def Decl.convert (d : Decl) (p : Profile) : Except StageFailure SourceFile :=
  ({ profile := p : Converter }.convert d).result

end ClassIdiom
