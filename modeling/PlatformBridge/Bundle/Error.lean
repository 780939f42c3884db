import PlatformBridge.Generation.Error
import PlatformBridge.Package.Identity
import PlatformBridge.Validation.Finding

/-!
# Package Errors

Why a package cannot be generated, written or verified.

## Main definitions

* `BundleError`: The causes.
-/

namespace PlatformBridge

/-- Why a package cannot be generated, written or verified. -/
inductive BundleError where
  | validation (failure : ValidationFailure)
  | package (error : PackageError)
  | serialization
  | generation (error : GenerationError)
  /-- A file could not be given a temporary name. -/
  | noTemporaryName
  | targetNotEmpty (path : String)
  | outputPath (path : String)
  | drift (reason : String)
  | file (path reason : String)
  deriving DecidableEq, Repr

/-- The message of an error. -/
def BundleError.message : BundleError → String
  | validation failure => failure.message
  | package error => error.message
  | serialization => "serialization error: document nests too deep"
  | generation error => "generation error: " ++ error.message
  | noTemporaryName => "generation error: unable to allocate temporary output file"
  | targetNotEmpty path =>
    "target directory " ++ path ++ " is not empty; pass the overwrite flag to regenerate"
  | outputPath path => "invalid output path: " ++ path
  | drift reason => "package drift: " ++ reason
  | file path reason => "io error: " ++ path ++ ": " ++ reason

end PlatformBridge
