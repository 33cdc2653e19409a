import ClassIdiom.Decl.Basic
import ClassIdiom.Json.Basic

/-! # Writing declarations

A declaration is written as a JSON object with every field, defaults and nulls included, in the
order of the fields. A member is one flat object: its modifiers, its kind and what is particular to
the kind. -/

namespace ClassIdiom

/-- A parameter as a JSON object. -/
def Parameter.toJson (p : Parameter) : Json :=
  .obj [("name", .str p.name), ("type", .str p.type)]

/-- An accessor as a JSON object. -/
def Accessor.toJson (a : Accessor) : Json :=
  .obj [("visibility", .opt (fun v => .str v.key) a.visibility)]

/-- A list of parameters as a JSON array. -/
def paramsToJson (params : List Parameter) : Json := .arr (params.map Parameter.toJson)

/-- The entries that are particular to a kind of member. -/
def MemberKind.toEntries : MemberKind → List (String × Json)
  | .field f => [
      ("type", .str f.type), ("default", .opt .str f.initial),
      ("mutability", .str f.mutability.spelling)]
  | .property p => [
      ("type", .str p.type), ("getter", p.getter.toJson), ("setter", .opt Accessor.toJson p.setter),
      ("default", .opt .str p.initial)]
  | .method m => [
      ("returnType", .str m.result), ("params", paramsToJson m.params), ("body", .strs m.body)]
  | .constructor c => [("params", paramsToJson c.params), ("body", .strs c.body)]

/-- A member as a JSON object. -/
def Member.toJson (m : Member) : Json :=
  .obj ([
    ("name", .str m.name), ("visibility", .str m.visibility.key), ("static", .bool m.isStatic),
    ("override", .bool m.isOverride), ("special", .opt (fun s => .str s.spelling) m.special),
    ("kind", .str m.kind.word)] ++ m.kind.toEntries)

/-- A declaration as a JSON object. -/
def Decl.toJson (d : Decl) : Json :=
  .obj [
    ("name", .str d.name), ("visibility", .str d.visibility.key),
    ("special", .opt (fun s => .str s.spelling) d.special), ("container", .opt .str d.container),
    ("imports", .strs d.imports), ("baseTypes", .strs d.bases),
    ("capabilities", .strs d.capabilities.toList), ("members", .arr (d.members.map Member.toJson))]

/-- A declaration as JSON text. -/
def Decl.print (d : Decl) : String := d.toJson.compress

end ClassIdiom
