import ClassIdiom.Emit
import ClassIdiom.Layout.Member

/-! # Writing a member

A member is written piece by piece onto the current line, and the types it mentions are looked up on
the way. Its lines, as a whole, are those of `Layout.memberLines`. -/

namespace ClassIdiom

namespace Layout

/-- Writes the block behind a head that stands on the current line. -/
def emitBlock (l : Layout) (body : List String) : Emit Unit :=
  match l.style.blocks with
  | .braces => do
    Emit.newline
    Emit.line "\x7b"
    Emit.innerLines body
    Emit.line "\x7d"
  | .indented placeholder => do
    Emit.line ":"
    Emit.innerLines (if body.isEmpty then [placeholder] else body)

/-- Writes the end of a statement and of its line. -/
def emitEnd (l : Layout) : Emit Unit := do
  Emit.write l.style.terminator
  Emit.newline

/-- Writes a field. -/
def emitField (l : Layout) (f : FlatField) : Emit Unit := do
  let type ← Emit.found (l.spell (f.origin.reportName f.name) f.type)
  Emit.write (l.style.accessWord f.access)
  let (words, type) := l.style.fieldMarks f.isStatic f.mutability type
  Emit.write words
  Emit.write (l.style.typed f.name type)
  if let some value := f.initial then
    Emit.write " = "
    Emit.write value
  l.emitEnd

/-- Writes a method. -/
def emitMethod (l : Layout) (m : FlatMethod) : Emit Unit := do
  let member := m.origin.reportName m.signature.name
  let result ← Emit.found (l.spell member m.result)
  let params ← Emit.found (l.params member (!m.isStatic) m.params)
  Emit.lines (l.methodDecorators m)
  Emit.write (l.style.accessWord m.access)
  Emit.write (if m.isStatic then Style.leading l.style.staticMethodWord else "")
  Emit.write (Style.leading (l.style.methodForm m.special).before)
  Emit.write (Style.leading l.style.methodKeyword)
  Emit.write (l.declarator m.name (l.resultType m result) params)
  Emit.write (Style.following (l.style.overrideWord m.overrides))
  Emit.write (Style.following (l.style.methodForm m.special).after)
  match l.bodyLines m with
  | some body => l.emitBlock body
  | none => l.emitEnd

/-- Writes a static initializer. -/
def emitStaticInit (l : Layout) (c : FlatConstructor) : Emit Unit :=
  match l.style.staticInit with
  | .block keyword => do
    Emit.write keyword
    l.emitBlock c.body
  | .classBody =>
    match c.body, l.style.blocks with
    | [], .indented placeholder => Emit.line placeholder
    | body, _ => Emit.lines body
  | .unsupported =>
    throw ⟨l.className, some c.signature.name, .unmappable Profile.staticModifier⟩

/-- Writes a constructor. -/
def emitConstructor (l : Layout) (c : FlatConstructor) : Emit Unit :=
  if c.isStatic then l.emitStaticInit c
  else do
    let params ← Emit.found (l.params c.signature.name true c.params)
    Emit.lines (l.style.overrideLine c.overrides).toList
    Emit.write (l.style.accessWord c.access)
    Emit.write (Style.leading l.style.methodKeyword)
    Emit.write (l.constructorName ++ "(" ++ params ++ ")")
    Emit.write l.constructorResult
    Emit.write (Style.following (l.style.overrideWord c.overrides))
    l.emitBlock c.body

/-- Writes a member. -/
def emitMember (l : Layout) : FlatMember → Emit Unit
  | .field f => l.emitField f
  | .method m => l.emitMethod m
  | .constructor c => l.emitConstructor c

end Layout

end ClassIdiom
