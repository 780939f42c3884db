import PlatformBridge.Contract.Basic
import PlatformBridge.Dart.Identifier
import PlatformBridge.Package.Identity

/-!
# The Dart Package

The files of the Dart side that every package has: its description, the library that exports
everything else, and the library that all proxies and data types share. Each file starts with a
header that names the contract it was generated from.

## Main definitions

* `fileHeader`: The header.
* `Dart.pubspec`: The description of the package.
* `Dart.exports`, `Dart.barrel`: The library that exports everything else.
* `Dart.bridge`: The shared library.
-/

namespace PlatformBridge

/-- The name of the generator. -/
def toolName : String := "flutnet-bridge-gen"

/-- The header of a generated file, each line after the mark of a comment. -/
def fileHeader (comment fingerprint : String) : String :=
  comment ++ " This file is @generated by " ++ toolName ++ ". DO NOT EDIT.\n"
    ++ comment ++ " Contract: " ++ fingerprint ++ "\n"

namespace Dart

/-- The kinds of errors that a reply can hold. -/
def failureNames : List String := [
  "OperationNotImplemented",
  "OperationArgumentCountMismatch",
  "InvalidOperationArguments",
  "OperationArgumentParsingError",
  "OperationFailed",
  "OperationCanceled",
  "EnvironmentNotInitialized"]

/-- A character inside a quoted text of the package description. -/
def escapeScalar (c : Char) : List Char :=
  if c = '\\' || c = '"' then ['\\', c] else [c]

/-- The lines of the description of the package, after its header. -/
def pubspec (package : PackageIdentity) : List String := [
  "",
  "name: " ++ package.name,
  "description: \"" ++ String.ofList (package.description.toList.flatMap escapeScalar) ++ "\"",
  "version: " ++ package.version,
  "publish_to: none",
  "",
  "environment:",
  "  sdk: \"" ++ package.dartSdk ++ "\""]

/-- The paths that the library exports, sorted. -/
def exports (c : Contract) : List String :=
  sortNames ("src/bridge.dart" :: (c.services.map fun s => "src/" ++ serviceFile s.name)
    ++ c.dataTypes.map fun d => "src/" ++ dataFile d.name)

/-- The lines of the library that exports everything else, after its header. -/
def barrel (package : PackageIdentity) (c : Contract) : List String :=
  ["", "/// Platform bridge for the `" ++ c.assembly ++ "` assembly.",
    "library " ++ package.name ++ ";", ""]
  ++ (exports c).map fun path => "export '" ++ path ++ "';"

/-- The lines of the shared library after its header. -/
def bridge : List String :=
  [
    "",
    "import 'dart:async';",
    "",
    "/// Delivers call envelopes to the native runtime.",
    "///",
    "/// Implementations own correlation ids and the platform channel.",
    "abstract class FlutnetTransport \x7b",
    "  /// Sends a call and completes with its reply envelope.",
    "  Future<Map<Object?, Object?>> invoke(Map<String, Object?> call);",
    "",
    "  /// Sends a call that never replies.",
    "  void post(Map<String, Object?> call);",
    "",
    "  /// Returns the payload stream of one platform event.",
    "  Stream<Object?> events(String eventId);",
    "\x7d",
    "",
    "/// Failure kinds reported by the native runtime.",
    "enum PlatformErrorKind \x7b"]
  ++ (failureNames.map fun kind =>
    "  " ++ Spelling.lowerCamelCase kind ++ "(" ++ literal kind ++ "),") ++ [
    "  unknown('Unknown');",
    "",
    "  const PlatformErrorKind(this.wireName);",
    "",
    "  final String wireName;",
    "",
    "  static PlatformErrorKind fromWire(Object? value) =>",
    "      PlatformErrorKind.values.firstWhere(",
    "        (kind) => kind.wireName == value,",
    "        orElse: () => PlatformErrorKind.unknown,",
    "      );",
    "\x7d",
    "",
    "/// Structured failure of a platform operation.",
    "class PlatformOperationException implements Exception \x7b",
    "  PlatformOperationException(this.kind, this.message);",
    "",
    "  final PlatformErrorKind kind;",
    "  final String message;",
    "",
    "  @override",
    "  String toString() => 'PlatformOperationException($\x7bkind.wireName\x7d): $message';",
    "\x7d",
    "",
    "/// Builds a call envelope.",
    "Map<String, Object?> callEnvelope(String operationId, List<Object?> arguments) =>",
    "    <String, Object?>\x7b'operation_id': operationId, 'arguments': arguments\x7d;",
    "",
    "/// Returns the result of a reply envelope or throws its error.",
    "Object? unwrapReply(Map<Object?, Object?> reply) \x7b",
    "  final payload = reply['payload']! as Map<Object?, Object?>;",
    "  final error = payload['error'];",
    "  if (error != null) \x7b",
    "    final fields = error as Map<Object?, Object?>;",
    "    throw PlatformOperationException(",
    "      PlatformErrorKind.fromWire(fields['kind']),",
    "      fields['message']! as String,",
    "    );",
    "  \x7d",
    "  return payload['result'];",
    "\x7d",
    "",
    "/// Decodes a nullable wire value.",
    "T? decodeNullable<T>(Object? value, T Function(Object? value) decode) =>",
    "    value == null ? null : decode(value);",
    "",
    "/// Decodes a wire list.",
    "List<T> decodeList<T>(Object? value, T Function(Object? item) decode) =>",
    "    (value! as List<Object?>).map(decode).toList();",
    "",
    "/// Decodes a string-keyed wire map.",
    "Map<String, T> decodeMap<T>(Object? value, T Function(Object? item) decode) =>",
    "    (value! as Map<Object?, Object?>)",
    "        .map((key, item) => MapEntry(key! as String, decode(item)));",
    "",
    "/// Encodes a nullable value.",
    "Object? encodeNullable<T extends Object>(T? value, Object? Function(T value) encode) =>",
    "    value == null ? null : encode(value);"]

end Dart

end PlatformBridge
