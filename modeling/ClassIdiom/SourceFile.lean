import ClassIdiom.Layout.Class
import ClassIdiom.Text.Token

/-! # Source files

A file holds one class. Before the class come groups of lines: the header, the container, the
imports that the text of the class asks for, and the imports of the declaration. An empty line
follows each group that is not empty. A container may also be written as a block around the class.
-/

namespace ClassIdiom

namespace Preamble

/-- The text uses what an import provides. -/
def triggered (text : String) (i : AutoImport) : Bool :=
  i.triggers.any (Text.containsToken text)

/-- The names that imports of a path provide. -/
def importedNames (imports : List AutoImport) (path : String) : List String :=
  (OrderedSet.ofList ((imports.filter (·.path == path)).filterMap (·.name))).toList

/-- The line that imports names of a path. -/
def autoImportLine (p : Preamble) (path : String) (names : List String) : String :=
  Text.fillNamed (Text.fillNamed p.autoImportFormat "module" path) "names" (", ".intercalate names)

/-- The imports that the text of a class asks for, one line a path. -/
def autoImportLines (p : Preamble) (text : String) : List String :=
  let imports := p.autoImports.filter (triggered text)
  (OrderedSet.ofList (imports.map (·.path))).toList.map fun path =>
    p.autoImportLine path (importedNames imports path)

/-- The imports of a declaration, each once. -/
def importLines (p : Preamble) (imports : List String) : List String :=
  let paths := imports.map fun i => Text.replace "." p.importSeparator (Text.trim i)
  (OrderedSet.ofList (paths.filter (· ≠ ""))).toList.map (Text.fill p.importFormat)

/-- The path of a container in a format. -/
def containerText (format separator container : String) : String :=
  Text.fill format (Text.replace "." separator (Text.trim container))

/-- The line that names the container, where it is a statement. -/
def containerLines (p : Preamble) (container : Option String) : List String :=
  match container, p.container with
  | some path, .statement format separator => [containerText format separator path]
  | _, _ => []

/-- The groups of lines before a class. -/
def groups (p : Preamble) (c : Resolved) (text : String) : List (List String) :=
  [p.header, p.containerLines c.container, p.autoImportLines text, p.importLines c.imports]

/-- The lines of the groups, with an empty line after each group that is not empty. -/
def groupLines (groups : List (List String)) : List String :=
  (groups.filter (!·.isEmpty)).flatMap (· ++ [""])

end Preamble

namespace Style

/-- The text of a class, in the block of its container if there is one. -/
def containedLines (s : Style) (container : Option String) (text : String) : List Line :=
  match container, s.preamble.container with
  | some path, .block format separator =>
    let head := Preamble.containerText format separator path
    match s.blocks with
    | .braces => flush ([head, "\x7b"] ++ Text.lines text ++ ["\x7d"])
    | .indented _ => flush [head ++ ":"] ++ inner (Text.lines text)
  | _, _ => flush (Text.lines text)

/-- The lines of the file of a class that has the given text. -/
def fileLines (s : Style) (c : Resolved) (text : String) : List Line :=
  flush (Preamble.groupLines (s.preamble.groups c text)) ++ s.containedLines c.container text

/-- The text of the file of a class that has the given text. -/
def fileText (s : Style) (c : Resolved) (text : String) : String :=
  ((Writer.new s.indent).putLines (s.fileLines c text)).text

end Style

/-- The text of the file of a class. -/
def Layout.fileText (l : Layout) (c : Resolved) : Except Failure String :=
  (l.classText c).map (l.style.fileText c)

/-- A file of source text. -/
structure SourceFile where
  /-- The name of the class. -/
  name : String
  stem : String
  extension : String
  text : String
deriving DecidableEq, Repr

/-- The name of a file. -/
def SourceFile.fileName (f : SourceFile) : String := f.stem ++ "." ++ f.extension

end ClassIdiom
