import ClassIdiom.Profile.Basic

/-! # The built-in profiles

One profile for each target. -/

namespace ClassIdiom.Profile

/-- Java: access keywords on every member, packages, annotations above overriding methods. -/
def java : Profile where
  target := .java
  visibility := .ofList [
    (.pub, .pub), (.prot, .prot), (.priv, .priv), (.package, .package), (.internal, .package),
    (.protInternal, .prot)]
  fallback := .priv
  types := .ofList [
    ("void", "void"), ("bool", "boolean"), ("byte", "byte"), ("sbyte", "byte"), ("char", "char"),
    ("short", "short"), ("ushort", "int"), ("int", "int"), ("uint", "long"), ("long", "long"),
    ("ulong", "long"), ("float", "float"), ("double", "double"),
    ("decimal", "java.math.BigDecimal"), ("object", "Object"), ("string", "String")]
  arrayFormat := "\x7b\x7d[]"
  knownTypes := {}
  naming := {}
  style := {
    order := .typeFirst
    access := .keyword
    statics := .keyword "static" "static"
    staticInit := .block "static"
    mutability := .keyword "final" "static final"
    overrides := .above "@Override"
    heritage := .keywords "extends" "implements"
    blocks := .braces
    terminator := ";"
    receiver := none
    methodKeyword := none
    constructorName := .typeName
    classTerminator := ""
    indent := "    "
    byReference := none
    methodForms := .ofList [
      (.abstract, { before := some "abstract" }), (.virtual, {}),
      (.sealed, { before := some "final" })]
    classForms := .ofList [
      (.abstract, { before := some "abstract" }), (.sealed, { before := some "final" })]
    preamble := {
      container := .statement "package \x7b\x7d;" "."
      importFormat := "import \x7b\x7d.*;"
      importSeparator := "."
      autoImportFormat := "import \x7bmodule\x7d.\x7bnames\x7d;" } }
  fileExtension := "java"

/-- C++: access sections, namespaces, types of fixed width, parameters by constant reference. -/
def cpp : Profile where
  target := .cpp
  visibility := .ofList [(.pub, .pub), (.prot, .prot), (.priv, .priv)]
  fallback := .priv
  types := .ofList [
    ("void", "void"), ("bool", "bool"), ("sbyte", "int8_t"), ("char", "char"),
    ("short", "int16_t"), ("int", "int32_t"), ("long", "int64_t"), ("byte", "uint8_t"),
    ("ushort", "uint16_t"), ("uint", "uint32_t"), ("ulong", "uint64_t"), ("float", "float"),
    ("double", "double"), ("object", "void*"), ("string", "std::string")]
  arrayFormat := "std::vector<\x7b\x7d>"
  knownTypes := {}
  naming := {}
  style := {
    order := .typeFirst
    access := .sections
    statics := .keyword "static" "inline static"
    staticInit := .unsupported
    mutability := .keyword "const" "inline static const"
    overrides := .trailing "override"
    heritage := .baseList (some "public")
    blocks := .braces
    terminator := ";"
    receiver := none
    methodKeyword := none
    constructorName := .typeName
    classTerminator := ";"
    indent := "    "
    byReference := some {
      format := "const \x7b\x7d&"
      byValue := .ofList [
        "bool", "char", "int8_t", "int16_t", "int32_t", "int64_t", "uint8_t", "uint16_t",
        "uint32_t", "uint64_t", "float", "double", "void", "void*"] }
    methodForms := .ofList [
      (.abstract, { before := some "virtual", after := some "= 0" }),
      (.virtual, { before := some "virtual" }), (.sealed, { after := some "final" })]
    classForms := .ofList [(.abstract, {}), (.sealed, { after := some "final" })]
    preamble := {
      header := ["#pragma once"]
      container := .block "namespace \x7b\x7d" "::"
      importFormat := "#include \"\x7b\x7d.hpp\""
      importSeparator := "/"
      autoImports := [
        { path := "cstdint"
          name := none
          triggers := [
            "int8_t", "int16_t", "int32_t", "int64_t", "uint8_t", "uint16_t", "uint32_t",
            "uint64_t"] },
        { path := "string", name := none, triggers := ["std::string"] },
        { path := "vector", name := none, triggers := ["std::vector"] }]
      autoImportFormat := "#include <\x7bmodule\x7d>" } }
  fileExtension := "hpp"

/-- Python: data classes with annotated fields, blocks by indentation, no access levels. -/
def python : Profile where
  target := .python
  visibility := .ofList (Visibility.all.map fun v => (v, .pub))
  fallback := .priv
  types := .ofList [
    ("void", "None"), ("bool", "bool"), ("sbyte", "int"), ("byte", "int"), ("short", "int"),
    ("ushort", "int"), ("int", "int"), ("uint", "int"), ("long", "int"), ("ulong", "int"),
    ("float", "float"), ("double", "float"), ("decimal", "Decimal"), ("char", "str"),
    ("string", "str"), ("object", "object")]
  arrayFormat := "list[\x7b\x7d]"
  knownTypes := {}
  naming := { fieldPrefix := "_" }
  style := {
    order := .nameFirst
    access := .implicit
    statics := .decorated "@staticmethod" "ClassVar[\x7b\x7d]"
    staticInit := .classBody
    mutability := .wrapped "Final[\x7b\x7d]"
    overrides := .above "@override"
    heritage := .parenthesized
    blocks := .indented "pass"
    terminator := ""
    receiver := some "self"
    methodKeyword := some "def"
    constructorName := .fixed "__init__"
    classDecorators := ["@dataclass"]
    classTerminator := ""
    indent := "    "
    byReference := none
    methodForms := .ofList [
      (.abstract, { decorator := some "@abstractmethod" }), (.virtual, {}),
      (.sealed, { decorator := some "@final" })]
    classForms := .ofList [(.abstract, {}), (.sealed, { decorator := some "@final" })]
    preamble := {
      container := .omitted
      importFormat := "from \x7b\x7d import *"
      importSeparator := "."
      autoImports := [
        { path := "dataclasses", name := some "dataclass", triggers := ["@dataclass"] },
        { path := "decimal", name := some "Decimal", triggers := ["Decimal"] },
        { path := "typing", name := some "ClassVar", triggers := ["ClassVar"] },
        { path := "typing", name := some "Final", triggers := ["Final"] },
        { path := "typing", name := some "final", triggers := ["@final"] },
        { path := "typing", name := some "override", triggers := ["@override"] },
        { path := "abc", name := some "abstractmethod", triggers := ["@abstractmethod"] }]
      autoImportFormat := "from \x7bmodule\x7d import \x7bnames\x7d" } }
  fileExtension := "py"

/-- The profile of a target. -/
def builtIn : Target → Profile
  | .java => java
  | .cpp => cpp
  | .python => python

end ClassIdiom.Profile
