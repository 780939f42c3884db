import PlatformBridge.Dispatch.Host
import PlatformBridge.Files.Tree
import PlatformBridge.Main
import PlatformBridge.Proofs.Results
import PlatformBridge.Proofs.Text.Split
import PlatformBridge.Proofs.Runs
import PlatformBridge.Proofs.Files.Changes
import PlatformBridge.Proofs.Spelling.Case
import PlatformBridge.Proofs.Spelling.NormalForms
import PlatformBridge.Proofs.Spelling.Scanning
import PlatformBridge.Proofs.Bundle.Manifest
import PlatformBridge.Proofs.Bundle.Files
import PlatformBridge.Proofs.Bundle.Output
import PlatformBridge.Proofs.Bundle.SafePaths
import PlatformBridge.Proofs.Bundle.Writing
import PlatformBridge.Proofs.Bundle.TypeNames
import PlatformBridge.Proofs.Bundle.Modules
import PlatformBridge.Proofs.Bundle.WireNames
import PlatformBridge.Proofs.Bundle.Links
import PlatformBridge.Proofs.Wire.Leaves
import PlatformBridge.Wire.Argument
import PlatformBridge.Proofs.Wire.Success
import PlatformBridge.Proofs.Wire.Arguments
import PlatformBridge.Proofs.Wire.Members
import PlatformBridge.Proofs.Wire.NormalForm
import PlatformBridge.Proofs.Wire.RoundTrip
import PlatformBridge.Proofs.Wire.Messages
import PlatformBridge.Proofs.Contract.Closed
import PlatformBridge.Proofs.Contract.Reading
import PlatformBridge.Proofs.Wire.Defined
import PlatformBridge.Proofs.Validation.Types
import PlatformBridge.Proofs.Validation.DataTypes
import PlatformBridge.Proofs.Validation.Clashes
import PlatformBridge.Proofs.Validation.Services
import PlatformBridge.Proofs.Validation.Closure
import PlatformBridge.Proofs.Validation.Interfaces
import PlatformBridge.Proofs.Validation.Operations
import PlatformBridge.Proofs.Dispatch.Replies
import PlatformBridge.Proofs.Dispatch.Cancellation
import PlatformBridge.Proofs.Dispatch.Signals
import PlatformBridge.Proofs.Dispatch.Boundary
import PlatformBridge.Proofs.Validation.OperationIds
import PlatformBridge.Proofs.Validation.Inheritors
import PlatformBridge.Proofs.Validation.Bases
import PlatformBridge.Proofs.Validation.Definitions
import PlatformBridge.Proofs.Validation.Lineage
import PlatformBridge.Proofs.Validation.FieldNames
import PlatformBridge.Proofs.Validation.Recognition
import PlatformBridge.Proofs.Validation.Rivals
import PlatformBridge.Proofs.Validation.Obstacles
import PlatformBridge.Proofs.Dispatch.Codes
import PlatformBridge.Proofs.Dispatch.Release
import PlatformBridge.Proofs.Bundle.Readiness
import PlatformBridge.Proofs.Bundle.Failures
import PlatformBridge.Proofs.Files.Clearance
import PlatformBridge.Proofs.Files.Making
import PlatformBridge.Proofs.Bundle.Refusals
import PlatformBridge.Proofs.Dart.Names
import PlatformBridge.Proofs.Bundle.MemberNames
import PlatformBridge.Proofs.Dart.Encoding
import PlatformBridge.Proofs.Package.Identity
import PlatformBridge.Proofs.Settings.Identity
import PlatformBridge.Proofs.Settings.Loading
import PlatformBridge.Proofs.Settings.Starter
import PlatformBridge.Proofs.Contract.Inheritance
import PlatformBridge.Proofs.Messages.Insertion
import PlatformBridge.Proofs.Bundle.Pubspec
import PlatformBridge.Proofs.Dart.Calls
import PlatformBridge.Proofs.Bundle.HiddenFunctions
import PlatformBridge.Proofs.Dart.Quoting
