import PlatformBridge.Digest.Content
import PlatformBridge.Generation.Error
import PlatformBridge.Package.Identity

/-!
# Manifests

The manifest of a generated package lists its files with their digests, and names the contract they
were generated from. It is written beside them, so that a package that is already there can be
checked, and cleared of files that are no longer generated.

## Main definitions

* `Manifest`, `ListedFile`: A manifest.
* `Manifest.reader`, `Manifest.toJson`: Its document.
* `Json.indentedCanonical?`: The text that documents are written as.
-/

namespace PlatformBridge

/-- The text of a document on disk: indented, members sorted. The canonical text is read again on
    the way, which fails for a value that nests too deep to be read at all. -/
def Json.indentedCanonical? (value : Json) : Option String :=
  (Json.parse? value.canonical).map fun v => v.pretty ++ "\n"

/-- A file of a package. -/
structure ListedFile where
  path : String
  side : Side
  digest : Digest
  deriving DecidableEq, Repr, Inhabited

/-- A manifest. -/
structure Manifest where
  generator : String
  toolVersion : String
  package : PackageIdentity
  fingerprint : Digest
  files : List ListedFile
  deriving DecidableEq, Repr, Inhabited

namespace ListedFile

/-- Reads a file of a manifest. -/
def reader : Json.Reader ListedFile :=
  .record ["path", "side", "digest"] fun r => do
    some ⟨← r.required "path" .text, ← r.required "side" (.name Side.names),
      ⟨← r.required "digest" .text⟩⟩

/-- The document of a file of a manifest. -/
def toJson (e : ListedFile) : Json :=
  .object [("path", .string e.path), ("side", .string e.side.text),
    ("digest", .string e.digest.hex)]

end ListedFile

/-- Reads the identity of a package. -/
def PackageIdentity.reader : Json.Reader PackageIdentity :=
  .record ["name", "description", "version", "dart_sdk"] fun r => do
    some {
      name := ← r.required "name" .text
      description := ← r.required "description" .text
      version := ← r.required "version" .text
      dartSdk := ← r.required "dart_sdk" .text }

namespace Manifest

/-- The file that holds the manifest. -/
def fileName : String := "index.json"

/-- Reads a manifest. -/
def reader : Json.Reader Manifest :=
  .record ["generator", "generator_version", "package", "contract_fingerprint", "artifacts"]
    fun r => do
      some {
        generator := ← r.required "generator" .text
        toolVersion := ← r.required "generator_version" .text
        package := ← r.required "package" PackageIdentity.reader
        fingerprint := ⟨← r.required "contract_fingerprint" .text⟩
        files := ← r.required "artifacts" (.list ListedFile.reader) }

/-- The document of a manifest. -/
def toJson (m : Manifest) : Json :=
  .object [
    ("generator", .string m.generator),
    ("generator_version", .string m.toolVersion),
    ("package", m.package.toJson),
    ("contract_fingerprint", .string m.fingerprint.hex),
    ("artifacts", .array (m.files.map ListedFile.toJson))]

end Manifest

end PlatformBridge
