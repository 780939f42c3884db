import PlatformBridge.Bundle.Error
import PlatformBridge.Bundle.Manifest
import PlatformBridge.Dart.DataClass
import PlatformBridge.Native.DataModule
import PlatformBridge.Validation.Verdict

/-!
# Generated Packages

A package is rendered from a contract: on the Dart side its description, a library that exports
everything, the shared library, and a file for each service and data type; on the native side the
module root, the data types, the contract itself and a stub for each service. The files are in the
order of their paths, which have to be distinct.

## Main definitions

* `GeneratedFile`, `Bundle`: A file, and a package.
* `Contract.bundle`: The package of a contract.
* `Verdict.bundle`: The same, if nothing was found to stand in the way.
-/

namespace PlatformBridge

/-- A generated file. -/
structure GeneratedFile where
  path : String
  side : Side
  text : String
  deriving DecidableEq, Repr, Inhabited

/-- A generated package, files in the order of their paths. -/
structure Bundle where
  manifest : Manifest
  files : List GeneratedFile
  deriving DecidableEq, Repr, Inhabited

namespace GeneratedFile

/-- The entry of a file in the manifest. -/
def entry (a : GeneratedFile) : ListedFile := ⟨a.path, a.side, Digest.ofText a.text⟩

end GeneratedFile

/-- The version of the tool. -/
def toolVersion : String := "0.1.0"

/-- How many digits of the fingerprint the header of a file shows. -/
def headerDigits : Nat := 16

namespace Contract

/-- The file of a service on the Dart side. -/
def dartService (header : String) (s : Service) : Except GenerationError GeneratedFile :=
  (Dart.Proxy.ofService s).map fun p =>
    ⟨"lib/src/" ++ Dart.serviceFile s.name, .dart, fileText header p.lines⟩

/-- The file of a service on the native side. -/
def nativeService (header : String) (s : Service) : Except GenerationError GeneratedFile :=
  (Native.Stub.ofService s).map fun t =>
    ⟨Native.serviceFile s.name, .native, fileText header t.lines⟩

/-- The file of a data type on the Dart side. -/
def dartData (c : Contract) (header : String) (d : DataType) :
    Except GenerationError GeneratedFile :=
  (Dart.DataClass.ofDataType c d).map fun k =>
    ⟨"lib/src/" ++ Dart.dataFile d.name, .dart, fileText header k.lines⟩

/-- The files of a package, in no particular order. -/
def files (c : Contract) (package : PackageIdentity) : Except BundleError (List GeneratedFile) := do
  let digits := c.fingerprint.short headerDigits
  let header := fileHeader "//" digits
  let data ← (Native.dataModule c).mapError .generation
  let some document := Json.indentedCanonical? c.toJson | throw .serialization
  let services ← (c.services.mapM fun s => do
    return [← dartService header s, ← nativeService header s]).mapError .generation
  let types ← (c.dataTypes.mapM (c.dartData header)).mapError .generation
  return [
    ⟨"pubspec.yaml", .dart, fileText (fileHeader "#" digits) (Dart.pubspec package)⟩,
    ⟨"lib/" ++ package.name ++ ".dart", .dart, fileText header (Dart.barrel package c)⟩,
    ⟨"lib/src/bridge.dart", .dart, fileText header Dart.bridge⟩,
    ⟨"native/mod.rs", .native, fileText header (Native.moduleRoot c)⟩,
    ⟨"native/data.rs", .native, fileText header data⟩,
    ⟨"native/contract.json", .native, document⟩] ++ services.flatten ++ types

/-- The first path that is that of the manifest or of a file before it. -/
def repeatedPath? (files : List GeneratedFile) : Option String :=
  firstRepeated? [Manifest.fileName] (files.map (·.path))

/-- The package of a contract. -/
def bundle (c : Contract) (package : PackageIdentity) : Except BundleError Bundle := do
  let sorted := (← c.files package).mergeSort fun a b => a.path ≤ b.path
  if let some path := repeatedPath? sorted then
    throw (.generation (.repeatedPath path))
  return {
    manifest := {
      generator := toolName
      toolVersion
      package
      fingerprint := c.fingerprint
      files := sorted.map GeneratedFile.entry }
    files := sorted }

end Contract

/-- The package of the contract of a library, if nothing was found to stand in the way. -/
def Verdict.bundle (o : Verdict) (package : PackageIdentity) :
    Except BundleError Bundle := do
  (← o.toContract.mapError .validation).bundle package

end PlatformBridge
