import PlatformBridge.Dart.Proxy

/-!
# Dart Data Types

A data type is a class or an enumeration on the Dart side. It is first laid out with the names that
its fields or members get, which have to be distinct, and then written.

## Main definitions

* `Dart.DataClass`: The class or enumeration of a data type.
* `Dart.DataClass.ofDataType`: Its layout.
* `Dart.DataClass.lines`: Its file.
-/

namespace PlatformBridge

namespace Dart

/-- The fields of a class, or the members of an enumeration, with their names. -/
inductive DataBody where
  | fields (named : List (String × Field))
  | members (named : List (String × String))
  deriving DecidableEq, Repr

/-- The class or enumeration of a data type. -/
structure DataClass where
  name : String
  typeName : TypeName
  body : DataBody
  deriving DecidableEq, Repr

namespace DataClass

/-- The class or enumeration of a data type, unless two of its fields or members get one name. -/
def ofDataType (c : Contract) (d : DataType) : Except GenerationError DataClass :=
  match d.shape with
  | .enumeration members =>
    let named := members.map fun m => (identifier (enumerationNames ++ inheritedNames) m, m)
    (requireDistinct .dart d.name (named.map (·.1))).map fun _ =>
      ⟨typeIdentifier d.name, d.name, .members named⟩
  | .composite _ _ =>
    let named := (c.fieldsWithInherited d.name).map fun f =>
      (identifier (dataClassNames ++ inheritedNames) f.name, f)
    (requireDistinct .dart d.name (named.map (·.1))).map fun _ =>
      ⟨typeIdentifier d.name, d.name, .fields named⟩

/-- The members of an enumeration, the last one with a semicolon. -/
def memberLines : List (String × String) → List String
  | [] => []
  | [(name, member)] => ["  " ++ name ++ "(" ++ literal member ++ ");"]
  | (name, member) :: rest => ("  " ++ name ++ "(" ++ literal member ++ "),") :: memberLines rest

/-- The lines of an enumeration. -/
def enumLines (d : DataClass) (named : List (String × String)) : List String :=
  ["", "/// Wire enumeration `" ++ d.typeName ++ "`.", "enum " ++ d.name ++ " \x7b"]
  ++ memberLines named ++ [
    "",
    "  const " ++ d.name ++ "(this.wireName);",
    "",
    "  final String wireName;",
    "",
    "  static " ++ d.name ++ " fromWire(Object? value) => " ++ d.name ++ ".values.firstWhere(",
    "        (member) => member.wireName == value,",
    "        orElse: () => throw FormatException('unknown " ++ d.name ++ " member: $value'),",
    "      );",
    "\x7d"]

/-- The parameter of the constructor for a field; one that may be absent is not required. -/
def constructorParameter (name : String) (f : Field) : String :=
  if f.type.isNullable then "this." ++ name else "required this." ++ name

/-- The data types that the fields mention, sorted, without the type itself. -/
def imports (d : DataClass) (named : List (String × Field)) : List TypeName :=
  (sortNames (named.filterMap fun (_, f) => f.type.named?)).filter fun n => n ≠ d.typeName

/-- The lines of a class. -/
def classLines (d : DataClass) (named : List (String × Field)) : List String :=
  ["", "import '../bridge.dart';"] ++ (d.imports named).map importLine ++ [
    "",
    "/// Wire data type `" ++ d.typeName ++ "`.",
    "class " ++ d.name ++ " \x7b",
    if named.isEmpty then "  const " ++ d.name ++ "();"
    else "  const " ++ d.name ++ "(\x7b"
      ++ ", ".intercalate (named.map fun (name, f) => constructorParameter name f) ++ "\x7d);",
    ""]
  ++ (named.map fun (name, f) => "  final " ++ f.type.inDart ++ " " ++ name ++ ";") ++ [
    "",
    "  /// Encodes this value into its wire form.",
    "  Map<String, Object?> toJson() => <String, Object?>\x7b"]
  ++ (named.map fun (name, f) =>
    "        " ++ literal f.name ++ ": " ++ f.type.dartEncode name 0 ++ ",") ++ [
    "      \x7d;",
    "",
    "  /// Decodes a wire value.",
    "  factory " ++ d.name ++ ".fromJson(Object? json) \x7b",
    "    final map = json! as Map<Object?, Object?>;",
    "    return " ++ d.name ++ "("]
  ++ (named.map fun (name, f) =>
    "      " ++ name ++ ": " ++ f.type.dartDecode ("map[" ++ literal f.name ++ "]") 0 ++ ",") ++ [
    "    );",
    "  \x7d",
    "\x7d"]

/-- The lines of the file after its header. -/
def lines (d : DataClass) : List String :=
  match d.body with
  | .members named => d.enumLines named
  | .fields named => d.classLines named

end DataClass

end Dart

end PlatformBridge
