import TextProviders.FailureKind
import TextProviders.FileSystem
import TextProviders.Template.Store
import TextProviders.Text.Utf8

/-!
What can go wrong with one declaration, as causes, and the words for each.

Every cause has a kind.  Four kinds belong to generation itself; what has another kind was not
foreseen there and is shown with the name of its kind.
-/

namespace TextProviders

/-- The kind of an error about a path. -/
def AccessError.kind : AccessError → FailureKind
  | notFound => .missingFile
  | alreadyThere => .fileExists
  | notDirectory => .notDirectory
  | isDirectory => .isDirectory
  | nameTooLong => .system
  | nul => .value

/-- A resource as it is asked for. -/
structure ResourceName where
  package : String
  baseName : String
  extension : String
deriving DecidableEq, Repr

/-- The file name of a resource. -/
def ResourceName.fileName (r : ResourceName) : String :=
  r.baseName ++ "." ++ r.extension

/-- Why a resource has no text. -/
inductive Unreadable where
  | notFound
  | access (f : AccessFailure)
  | undecodable (f : Text.Utf8.Fault)
deriving DecidableEq, Repr

/-- The words for why a resource has no text. -/
def Unreadable.reason : Unreadable → String
  | notFound => "not found"
  | access f => f.message
  | undecodable f => f.message

/-- Why a declaration's providers were not generated. -/
inductive GenerationFailure where
  /-- Nothing is left of the declared extension. -/
  | emptyExtension
  /-- The type is in no package. -/
  | noPackage
  /-- The resource has no text. -/
  | resource (name : ResourceName) (why : Unreadable)
  /-- The strategy's template is missing from the store. -/
  | template (missing : Template.Missing)
  /-- Something stands where the provider of that name is to be written. -/
  | recreated (name : String)
  /-- The provider's file cannot be made. -/
  | uncreatable (path : Path) (why : AccessFailure)
  /-- Writing the provider failed; the words of the system's error are kept. -/
  | unwritable (name : String) (reason : String)
  /-- A path could not be used. -/
  | access (f : AccessFailure)
  /-- A failure of a given kind that a collaborator raised. -/
  | raised (kind : FailureKind) (message : String)
deriving DecidableEq, Repr

namespace GenerationFailure

/-- The kind of a failure. -/
def kind : GenerationFailure → FailureKind
  | emptyExtension => .configuration
  | noPackage => .configuration
  | resource _ _ => .resolution
  | template _ => .template
  | recreated _ => .write
  | uncreatable _ _ => .write
  | unwritable _ _ => .write
  | access f => f.error.kind
  | raised kind _ => kind

/-- The words for a failure. -/
def message : GenerationFailure → String
  | emptyExtension => "fileExtension must not be empty"
  | noPackage => "types in the default package are not supported"
  | resource name why =>
    "Unable to read resource " ++ (if name.package.isEmpty then "" else name.package ++ "/") ++
      name.fileName ++ ": " ++ why.reason
  | template missing =>
    "Template '" ++ missing.id ++ "' not found. Available: " ++ ", ".intercalate missing.available
  | recreated name => "Attempt to recreate a file for type " ++ name
  | uncreatable path why => "Unable to create " ++ path.text ++ ": " ++ why.message
  | unwritable name reason => "Unable to write " ++ name ++ ": " ++ reason
  | access f => f.message
  | raised _ message => message

/-- Whether a failure ends the batch and not only its declaration.  A template is wanted by every
declaration, so the others would fail in the same way. -/
def endsBatch (f : GenerationFailure) : Bool :=
  f.kind = .template

/-- The text that an outcome carries: the words, after the name of the kind if it is not one of
generation's own. -/
def report (f : GenerationFailure) : String :=
  if f.kind.isGeneration then f.message else f.kind.name ++ ": " ++ f.message

end GenerationFailure

end TextProviders
