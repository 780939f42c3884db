import PlatformBridge.Validation.Obstacle

/-!
# Findings

What validation finds. Each kind of finding has a severity; errors stand in the way of generating
anything. A report keeps the findings in the order in which they were made.

## Main definitions

* `FindingKind`, `Severity`, `Finding`: A finding.
* `Report`: The findings of a validation.
* `Report.addUnique`: A finding that is made from several places is kept once.
* `Report.failure?`: The errors, when there are any.
-/

namespace PlatformBridge

/-- How much a finding matters. -/
inductive Severity where
  | info
  | warning
  | error
  deriving DecidableEq, Repr, Inhabited

/-- What is found. -/
inductive FindingKind where
  | unsupportedDataType
  | unsupportedInheritedDataType
  | invalidOperationSignature
  | duplicateOperationName
  | unsupportedEventShape
  | nonPublicOperation
  | explicitInterfaceOperation
  | unmarkedDataSubtype
  deriving DecidableEq, Repr, Inhabited

namespace Severity

/-- The severities by their names. -/
def names : List (String × Severity) := [("info", info), ("warning", warning), ("error", error)]

/-- The name of a severity. -/
def text : Severity → String
  | info => "info"
  | warning => "warning"
  | error => "error"

end Severity

namespace FindingKind

/-- The kinds by their names in a document. -/
def names : List (String × FindingKind) := [
  ("unsupported_data_type", unsupportedDataType),
  ("unsupported_inherited_data_type", unsupportedInheritedDataType),
  ("invalid_operation_signature", invalidOperationSignature),
  ("duplicate_operation_name", duplicateOperationName),
  ("unsupported_event_shape", unsupportedEventShape),
  ("non_public_operation", nonPublicOperation),
  ("explicit_interface_operation", explicitInterfaceOperation),
  ("unmarked_data_subtype", unmarkedDataSubtype)]

/-- The name of a kind in a document. -/
def text : FindingKind → String
  | unsupportedDataType => "unsupported_data_type"
  | unsupportedInheritedDataType => "unsupported_inherited_data_type"
  | invalidOperationSignature => "invalid_operation_signature"
  | duplicateOperationName => "duplicate_operation_name"
  | unsupportedEventShape => "unsupported_event_shape"
  | nonPublicOperation => "non_public_operation"
  | explicitInterfaceOperation => "explicit_interface_operation"
  | unmarkedDataSubtype => "unmarked_data_subtype"

/-- The name of a kind in a message. -/
def label : FindingKind → String
  | unsupportedDataType => "UnsupportedDataType"
  | unsupportedInheritedDataType => "UnsupportedInheritedDataType"
  | invalidOperationSignature => "InvalidOperationSignature"
  | duplicateOperationName => "DuplicateOperationName"
  | unsupportedEventShape => "UnsupportedEventShape"
  | nonPublicOperation => "NonPublicOperation"
  | explicitInterfaceOperation => "ExplicitInterfaceOperation"
  | unmarkedDataSubtype => "UnmarkedDataSubtype"

/-- The severity of a kind. -/
def severity : FindingKind → Severity
  | nonPublicOperation | explicitInterfaceOperation => .warning
  | unmarkedDataSubtype => .info
  | _ => .error

end FindingKind

/-- A finding. -/
structure Finding where
  kind : FindingKind
  severity : Severity
  /-- The type, member or signature that the finding is about. -/
  subject : String
  /-- Other names that have to do with it. -/
  related : List String
  /-- The types that are in the way. -/
  causes : List Obstacle
  detail : String
  deriving DecidableEq, Repr, Inhabited

namespace Finding

/-- A finding with the severity of its kind. -/
def of (kind : FindingKind) (subject detail : String) (related : List String)
    (causes : List Obstacle) : Finding :=
  { kind, severity := kind.severity, subject, related, causes, detail }

/-- Whether the finding stands in the way. -/
def isError (d : Finding) : Bool := d.severity = .error

/-- The finding as it is shown. -/
def display (d : Finding) : String :=
  d.severity.text ++ " [" ++ d.kind.label ++ "] " ++ d.subject ++ ": " ++ d.detail
    ++ (if d.related.isEmpty then ""
      else " (related: " ++ ", ".intercalate d.related ++ ")")
    ++ (if d.causes.isEmpty then ""
      else " (caused by: " ++ "; ".intercalate (d.causes.map Obstacle.display) ++ ")")

/-- Reads a finding. -/
def reader : Json.Reader Finding :=
  .record ["kind", "severity", "subject", "related", "causes", "detail"] fun r => do
    some {
      kind := ← r.required "kind" (.name FindingKind.names)
      severity := ← r.required "severity" (.name Severity.names)
      subject := ← r.required "subject" .text
      related := ← r.defaulted "related" (.list .text) []
      causes := ← r.defaulted "causes" (.list Obstacle.reader) []
      detail := ← r.required "detail" .text }

/-- The document of a finding; lists without entries are left out. -/
def toJson (d : Finding) : Json :=
  .object <|
    [("kind", .string d.kind.text), ("severity", .string d.severity.text),
      ("subject", .string d.subject)]
    ++ (if d.related.isEmpty then [] else [("related", .ofStrings d.related)])
    ++ (if d.causes.isEmpty then [] else [("causes", .array (d.causes.map Obstacle.toJson))])
    ++ [("detail", .string d.detail)]

/-- Findings as a list with numbers from a given one. -/
def numbered (first : Nat) : List Finding → List String
  | [] => []
  | d :: rest => (toString first ++ ". " ++ d.display) :: numbered (first + 1) rest

end Finding

/-- The findings of a validation, in order. -/
abbrev Report := List Finding

/-- Errors that stand in the way. -/
structure ValidationFailure where
  errors : List Finding
  deriving DecidableEq, Repr

/-- The number of errors and a list of them. -/
def ValidationFailure.message (f : ValidationFailure) : String :=
  "contract validation failed with " ++ toString f.errors.length ++ " error(s):\n"
    ++ "\n".intercalate (Finding.numbered 1 f.errors)

namespace Report

/-- The report with a finding, unless an equal one is in it. -/
def addUnique (r : Report) (d : Finding) : Report :=
  if r.contains d then r else r ++ [d]

/-- The report with some findings, each once. -/
def addAllUnique (r : Report) (found : List Finding) : Report := found.foldl addUnique r

/-- The errors. -/
def errors (r : Report) : List Finding := r.filter Finding.isError

/-- Whether there are errors. -/
def hasErrors (r : Report) : Bool := r.any Finding.isError

/-- The findings as a numbered list. -/
def display (r : Report) : String := "\n".intercalate (Finding.numbered 1 r)

/-- The errors, when there are any. -/
def failure? (r : Report) : Option ValidationFailure :=
  if r.hasErrors then some ⟨r.errors⟩ else none

/-- The document of a report. -/
def toJson (r : Report) : Json := .array (r.map Finding.toJson)

end Report

end PlatformBridge
