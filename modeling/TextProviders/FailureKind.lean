/-!
The kinds of failures, and the names under which they are shown.
-/

namespace TextProviders

/-- The kinds of failures, generation's own first. -/
inductive FailureKind where
  | configuration
  | resolution
  | template
  | write
  | manifest
  | system
  | missingFile
  | isDirectory
  | notDirectory
  | fileExists
  | value
  | undecodable
  | runtime
  | missingKey
  | missingIndex
  | missingAttribute
  | overflow
  | wrongType
  | endless
deriving DecidableEq, Repr

namespace FailureKind

/-- The name of a kind as it is shown. -/
def name : FailureKind → String
  | configuration => "ConfigurationError"
  | resolution => "ResolutionError"
  | template => "TemplateError"
  | write => "WriteError"
  | manifest => "ManifestError"
  | system => "OSError"
  | missingFile => "FileNotFoundError"
  | isDirectory => "IsADirectoryError"
  | notDirectory => "NotADirectoryError"
  | fileExists => "FileExistsError"
  | value => "ValueError"
  | undecodable => "UnicodeDecodeError"
  | runtime => "RuntimeError"
  | missingKey => "KeyError"
  | missingIndex => "IndexError"
  | missingAttribute => "AttributeError"
  | overflow => "OverflowError"
  | wrongType => "TypeError"
  | endless => "RecursionError"

/-- Whether a kind belongs to generation itself. -/
def isGeneration : FailureKind → Bool
  | configuration | resolution | template | write => true
  | _ => false

/-- Whether a kind is one of the system's errors about files. -/
def isSystem : FailureKind → Bool
  | system | missingFile | isDirectory | notDirectory | fileExists => true
  | _ => false

end FailureKind

end TextProviders
