import ClassIdiom.Flat
import ClassIdiom.TypeNames
import ClassIdiom.Writer

/-! # The lines of a member

The pieces that a member of a class is made of, in the style of the target, and the lines that they
make up. The types it mentions are spelled on the way, the result of a method before its parameters
and the parameters from left to right; the first type without a spelling is reported. -/

namespace ClassIdiom

namespace Style

/-- The keyword of an access level with a blank, where levels are written on members. -/
def accessWord (s : Style) (a : Access) : String :=
  match s.access, a.keyword? with
  | .keyword, some keyword => keyword ++ " "
  | _, _ => ""

/-- A word with a blank after it, if there is one. -/
def leading : Option String → String
  | some word => word ++ " "
  | none => ""

/-- A word with a blank before it, if there is one. -/
def following : Option String → String
  | some word => " " ++ word
  | none => ""

/-- A name with its type. -/
def typed (s : Style) (name type : String) : String :=
  match s.order with
  | .typeFirst => type ++ " " ++ name
  | .nameFirst => name ++ ": " ++ type

/-- The spelling of a type where a value is passed by reference. -/
def referenced (s : Style) (type : String) : String :=
  match s.byReference with
  | some r => r.apply type
  | none => type

/-- The keyword of a static field, if there is one. -/
def staticFieldWord (s : Style) : Option String :=
  match s.statics with
  | .keyword _ field => some field
  | .decorated _ _ => none

/-- The keyword of a static method, if there is one. -/
def staticMethodWord (s : Style) : Option String :=
  match s.statics with
  | .keyword method _ => some method
  | .decorated _ _ => none

/-- The line above a static method, if there is one. -/
def staticDecorator (s : Style) : Option String :=
  match s.statics with
  | .keyword _ _ => none
  | .decorated decorator _ => some decorator

/-- The type of a static field. -/
def staticType (s : Style) (type : String) : String :=
  match s.statics with
  | .keyword _ _ => type
  | .decorated _ wrapper => Text.fill wrapper type

/-- The marks of a field: the words before it and its type. A constant is marked as such and not as
static, and so is any field whose mutability shows in its type. -/
def fieldMarks (s : Style) (isStatic : Bool) (m : Mutability) (type : String) : String × String :=
  let plain := if isStatic then (leading s.staticFieldWord, s.staticType type) else ("", type)
  match m, s.mutability with
  | .mutable, _ => plain
  | .readOnly, .keyword readOnly _ => (plain.1 ++ readOnly ++ " ", plain.2)
  | .constant, .keyword _ constant => (constant ++ " ", type)
  | _, .wrapped format => ("", Text.fill format type)

/-- The line above an overriding member, if there is one. -/
def overrideLine (s : Style) (overrides : Option OverrideSource) : Option String :=
  match overrides, s.overrides with
  | some _, .above text => some text
  | _, _ => none

/-- The word after the parameters of an overriding member, if there is one. -/
def overrideWord (s : Style) (overrides : Option OverrideSource) : Option String :=
  match overrides, s.overrides with
  | some _, .trailing word => some word
  | _, _ => none

/-- The form of a special modifier on a method; it is empty without a modifier. -/
def methodForm (s : Style) (special : Option Special) : SpecialForm :=
  (special.bind s.methodForms.get?).getD {}

/-- The form of a special modifier on a class; it is empty without a modifier. -/
def classForm (s : Style) (special : Option Special) : SpecialForm :=
  (special.bind s.classForms.get?).getD {}

/-- Lines at the depth of their surroundings. -/
def flush (texts : List String) : List Line := texts.map (⟨0, ·⟩)

/-- Lines one level in. -/
def inner (texts : List String) : List Line := texts.map (⟨1, ·⟩)

/-- A block with a head. -/
def block (s : Style) (head : String) (body : List String) : List Line :=
  match s.blocks with
  | .braces => flush [head, "\x7b"] ++ inner body ++ flush ["\x7d"]
  | .indented placeholder =>
    flush [head ++ ":"] ++ inner (if body.isEmpty then [placeholder] else body)

end Style

/-- What is needed to lay out the members of a class. -/
structure Layout where
  style : Style
  types : TypeNames
  className : String

namespace Layout

/-- The spelling of a type that a member mentions. -/
def spell (l : Layout) (member type : String) : Except Failure String :=
  match l.types.spell type with
  | some spelling => .ok spelling
  | none => .error ⟨l.className, some member, .unknownType type⟩

/-- One parameter. -/
def param (l : Layout) (member : String) (p : Parameter) : Except Failure String := do
  let type ← l.spell member p.type
  .ok (l.style.typed p.name (l.style.referenced type))

/-- The parameters, behind the receiver if it is written. -/
def params (l : Layout) (member : String) (withReceiver : Bool) (ps : List Parameter) :
    Except Failure String := do
  let texts ← ps.mapM (l.param member)
  .ok (", ".intercalate ((if withReceiver then l.style.receiver.toList else []) ++ texts))

/-- The lines of a field. -/
def fieldLines (l : Layout) (f : FlatField) : Except Failure (List Line) := do
  let type ← l.spell (f.origin.reportName f.name) f.type
  let (words, type) := l.style.fieldMarks f.isStatic f.mutability type
  let initial := match f.initial with
    | some value => " = " ++ value
    | none => ""
  .ok (Style.flush [l.style.accessWord f.access ++ words ++ l.style.typed f.name type ++ initial ++
    l.style.terminator])

/-- What comes before a backing field inside an accessor. -/
def fieldReceiver (l : Layout) (isStatic : Bool) : String :=
  match l.style.receiver with
  | some receiver => (if isStatic then l.className else receiver) ++ "."
  | none => ""

/-- The lines of the body of a method, or nothing for a method without a block. -/
def bodyLines (l : Layout) (m : FlatMethod) : Option (List String) :=
  match m.body with
  | .verbatim lines => some lines
  | .read field =>
    some ["return " ++ l.fieldReceiver m.isStatic ++ field ++ l.style.terminator]
  | .write field param =>
    some [l.fieldReceiver m.isStatic ++ field ++ " = " ++ param ++ l.style.terminator]
  | .abstract =>
    match l.style.blocks with
    | .braces => none
    | .indented _ => some []

/-- The result of a method as it is written; a getter may return by reference. -/
def resultType (l : Layout) (m : FlatMethod) (type : String) : String :=
  match m.body with
  | .read _ => l.style.referenced type
  | _ => type

/-- The name, the parameters and the result of a method. -/
def declarator (l : Layout) (name result params : String) : String :=
  match l.style.order with
  | .typeFirst => result ++ " " ++ name ++ "(" ++ params ++ ")"
  | .nameFirst => name ++ "(" ++ params ++ ") -> " ++ result

/-- The lines above a method. -/
def methodDecorators (l : Layout) (m : FlatMethod) : List String :=
  (l.style.overrideLine m.overrides).toList ++
    (if m.isStatic then l.style.staticDecorator.toList else []) ++
    (l.style.methodForm m.special).decorator.toList

/-- The head of a method around its declarator. -/
def methodHead (l : Layout) (m : FlatMethod) (declarator : String) : String :=
  l.style.accessWord m.access ++
    (if m.isStatic then Style.leading l.style.staticMethodWord else "") ++
    Style.leading (l.style.methodForm m.special).before ++ Style.leading l.style.methodKeyword ++
    declarator ++ Style.following (l.style.overrideWord m.overrides) ++
    Style.following (l.style.methodForm m.special).after

/-- The lines of a method. -/
def methodLines (l : Layout) (m : FlatMethod) : Except Failure (List Line) := do
  let member := m.origin.reportName m.signature.name
  let result ← l.spell member m.result
  let params ← l.params member (!m.isStatic) m.params
  let head := l.methodHead m (l.declarator m.name (l.resultType m result) params)
  .ok (Style.flush (l.methodDecorators m) ++
    match l.bodyLines m with
    | some body => l.style.block head body
    | none => Style.flush [head ++ l.style.terminator])

/-- The lines of a static initializer. -/
def staticInitLines (l : Layout) (c : FlatConstructor) : Except Failure (List Line) :=
  match l.style.staticInit with
  | .block keyword => .ok (l.style.block keyword c.body)
  | .classBody =>
    match c.body, l.style.blocks with
    | [], .indented placeholder => .ok (Style.flush [placeholder])
    | body, _ => .ok (Style.flush body)
  | .unsupported =>
    .error ⟨l.className, some c.signature.name, .unmappable Profile.staticModifier⟩

/-- The result of a constructor, where results are written after the parameters. -/
def constructorResult (l : Layout) : String :=
  match l.style.order, l.types.spell voidType with
  | .nameFirst, some result => " -> " ++ result
  | _, _ => ""

/-- The name of a constructor. -/
def constructorName (l : Layout) : String :=
  match l.style.constructorName with
  | .typeName => l.className
  | .fixed name => name

/-- The lines of a constructor. -/
def constructorLines (l : Layout) (c : FlatConstructor) : Except Failure (List Line) :=
  if c.isStatic then l.staticInitLines c
  else do
    let params ← l.params c.signature.name true c.params
    let head := l.style.accessWord c.access ++ Style.leading l.style.methodKeyword ++
      l.constructorName ++ "(" ++ params ++ ")" ++ l.constructorResult ++
      Style.following (l.style.overrideWord c.overrides)
    .ok (Style.flush (l.style.overrideLine c.overrides).toList ++ l.style.block head c.body)

/-- The lines of a member. -/
def memberLines (l : Layout) : FlatMember → Except Failure (List Line)
  | .field f => l.fieldLines f
  | .method m => l.methodLines m
  | .constructor c => l.constructorLines c

end Layout

end ClassIdiom
