import PlatformBridge.Native.Stub

/-!
# Native Data Types

All data types are in one module on the native side. Each is first laid out with the names that its
fields or members get, which have to be distinct, and then written.

## Main definitions

* `Native.DataItem`: The declaration of a data type.
* `Native.DataItem.ofDataType`: Its layout.
* `Native.dataLines`: The module, from its declarations.
* `Native.dataModule`: The module of a contract.
-/

namespace PlatformBridge

namespace Native

/-- The fields of a structure, or the variants of an enumeration, with their names. -/
inductive DataBody where
  | fields (named : List (String × Field))
  | variants (named : List (String × String))
  deriving DecidableEq, Repr

/-- The declaration of a data type. -/
structure DataItem where
  name : String
  typeName : TypeName
  body : DataBody
  deriving DecidableEq, Repr

namespace DataItem

/-- The declaration of a data type, unless two of its fields or members get one name. -/
def ofDataType (c : Contract) (d : DataType) : Except GenerationError DataItem :=
  match d.shape with
  | .enumeration members =>
    let named := members.map fun m => (identifier (Spelling.pascalCase m), m)
    (requireDistinct .native d.name (named.map (·.1))).map fun _ =>
      ⟨typeIdentifier d.name, d.name, .variants named⟩
  | .composite _ _ =>
    let named := (c.fieldsWithInherited d.name).map fun f =>
      (identifier (Spelling.snakeCase f.name), f)
    (requireDistinct .native d.name (named.map (·.1))).map fun _ =>
      ⟨typeIdentifier d.name, d.name, .fields named⟩

/-- The lines of a declaration, a blank one first. -/
def lines (d : DataItem) : List String :=
  match d.body with
  | .variants named =>
    ["", "/// Wire enumeration `" ++ d.typeName ++ "`.",
      "#[derive(Debug, Clone, Copy, PartialEq, Eq, Hash, Serialize, Deserialize)]",
      "pub enum " ++ d.name ++ " \x7b"]
    ++ (named.flatMap fun (name, member) =>
      ["    #[serde(rename = \"" ++ member ++ "\")]", "    " ++ name ++ ","])
    ++ ["\x7d"]
  | .fields named =>
    ["", "/// Wire data type `" ++ d.typeName ++ "`.",
      "#[derive(Debug, Clone, PartialEq, Serialize, Deserialize)]",
      "#[serde(deny_unknown_fields)]",
      "pub struct " ++ d.name ++ " \x7b"]
    ++ (named.flatMap fun (name, f) =>
      ["    #[serde(rename = \"" ++ f.name ++ "\""
          ++ (if f.type.isNullable then ", default" else "") ++ ")]",
        "    pub " ++ name ++ ": " ++ f.type.inNative ++ ","])
    ++ ["\x7d"]

/-- Whether a field has a map in its type. -/
def hasMap (d : DataItem) : Bool :=
  match d.body with
  | .variants _ => false
  | .fields named => named.any fun (_, f) => f.type.hasMap

end DataItem

/-- The lines of the module of the data types, from their declarations. -/
def dataLines (declared : List DataItem) : List String :=
  ["", "//! Wire data types.", ""]
  ++ (if declared.any DataItem.hasMap then ["use std::collections::BTreeMap;", ""] else [])
  ++ ["use serde::Deserialize;", "use serde::Serialize;"]
  ++ declared.flatMap DataItem.lines

/-- The lines of the module of the data types of a contract, after its header. -/
def dataModule (c : Contract) : Except GenerationError (List String) :=
  (c.dataTypes.mapM (DataItem.ofDataType c)).map dataLines

end Native

end PlatformBridge
