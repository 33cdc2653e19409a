import ClassIdiom.Layout.Emission
import ClassIdiom.Resolved

/-! # Writing a class

A class is written member by member: the head, then each member behind a separator, then the end.
Between two fields there is no empty line; where access levels are written as labels, a label stands
wherever the level changes. -/

namespace ClassIdiom

namespace Layout

/-- The parents of a class behind its name. -/
def heritage (l : Layout) (c : Resolved) : String :=
  match l.style.heritage with
  | .keywords base capabilities =>
    (match c.base with
      | some b => " " ++ base ++ " " ++ b
      | none => "") ++
    (if c.capabilities.isEmpty then ""
      else " " ++ capabilities ++ " " ++ ", ".intercalate c.capabilities)
  | .baseList access =>
    if c.parents.isEmpty then ""
    else " : " ++ ", ".intercalate (c.parents.map (Style.leading access ++ ·))
  | .parenthesized =>
    if c.parents.isEmpty then "" else "(" ++ ", ".intercalate c.parents ++ ")"

/-- The lines before the members of a class. -/
def headLines (l : Layout) (c : Resolved) : List Line :=
  let form := l.style.classForm c.special
  let head := l.style.accessWord c.access ++ Style.leading form.before ++ "class " ++ c.name ++
    Style.following form.after ++ l.heritage c
  Style.flush (l.style.classDecorators ++ form.decorator.toList) ++
    match l.style.blocks with
    | .braces => Style.flush [head, "\x7b"]
    | .indented _ => Style.flush [head ++ ":"]

/-- A label stands before a member that follows another one or none. -/
def startsSection (l : Layout) (previous : Option FlatMember) (m : FlatMember) : Bool :=
  l.style.access == .sections && previous.map (·.access) != some m.access

/-- An empty line stands between two members unless both are fields. -/
def needsGap (previous : Option FlatMember) (m : FlatMember) : Bool :=
  previous.any fun p => !(p.isField && m.isField)

/-- Writes what comes before a member that follows another one or none. -/
def separate (l : Layout) (previous : Option FlatMember) (m : FlatMember) (w : Writer) : Writer :=
  if l.startsSection previous m then
    let w := (if previous.isSome then w.newline else w).dedent
    (match m.access.keyword? with
      | some label => w.line (label ++ ":")
      | none => w).indent
  else if needsGap previous m then w.newline
  else w

/-- Writes members, the first of which follows another one or none. -/
def emitMembers (l : Layout) : Option FlatMember → List FlatMember → Emit Unit
  | _, [] => pure ()
  | previous, m :: ms => do
    Emit.change (l.separate previous m)
    l.emitMember m
    l.emitMembers (some m) ms

/-- What stands in a class without members, one level in. -/
def emptyLines (l : Layout) (c : Resolved) : List Line :=
  match c.members, l.style.blocks with
  | [], .indented placeholder => Style.flush [placeholder]
  | _, _ => []

/-- The lines after the members of a class. -/
def endLines (l : Layout) : List Line :=
  match l.style.blocks with
  | .braces => Style.flush ["\x7d" ++ l.style.classTerminator]
  | .indented _ => []

/-- Writes a class. -/
def emitClass (l : Layout) (c : Resolved) : Emit Unit := do
  Emit.change fun w => (w.putLines (l.headLines c)).indent
  { l with className := c.name }.emitMembers none c.members
  Emit.change fun w => (w.putLines (l.emptyLines c)).dedent.putLines l.endLines

/-- The text of a class. -/
def classText (l : Layout) (c : Resolved) : Except Failure String :=
  (l.emitClass c).text l.style.indent

end Layout

end ClassIdiom
