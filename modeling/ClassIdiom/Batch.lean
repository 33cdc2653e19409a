import ClassIdiom.Conversion

/-! # Batches

The declarations of a batch are converted one by one. Each may mention the names of all, and
overridden members are looked up in all; apart from that they do not depend on each other. -/

namespace ClassIdiom

/-- The results of a batch, in the order of the declarations. -/
structure Batch where
  results : List (Except StageFailure SourceFile)

namespace Batch

/-- The converter of a batch. -/
def converter (p : Profile) (decls : List Decl) : Converter where
  profile := p
  hierarchy := some (Hierarchy.ofDecls decls)
  known := decls.map (·.name)

/-- Converts all declarations. -/
def convert (p : Profile) (decls : List Decl) : Batch where
  results := decls.map fun d => ((converter p decls).convert d).result

/-- The files written, in order. -/
def succeeded (b : Batch) : List SourceFile := b.results.filterMap (·.toOption)

/-- The failures, in order. -/
def failed (b : Batch) : List StageFailure :=
  b.results.filterMap fun
    | .error f => some f
    | .ok _ => none

/-- No declaration failed. -/
def isComplete (b : Batch) : Bool := b.failed.isEmpty

/-- The number of results. -/
def size (b : Batch) : Nat := b.results.length

end Batch

/-- The warning that reports a failure. -/
def StageFailure.warning (f : StageFailure) : String := "translation failed: " ++ f.message

end ClassIdiom
