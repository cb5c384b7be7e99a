import TextProviders.Path

/-!
The directories of a build: where resources are looked for, where sources are written, and the
paths of packages and types below them.
-/

namespace TextProviders

namespace Layout

/-- The directory of a dotted package name below a root. -/
def packageDir (root : Path) (package : String) : Path :=
  if package.isEmpty then root
  else (Text.splitOn '.' package.toList).foldl (fun dir part => dir.child (String.ofList part)) root

/-- The source file of a dotted type name below a root. -/
def sourceFile (root : Path) (name : String) : Path :=
  let (package, simple) := Text.splitLast '.' name.toList
  (packageDir root (String.ofList package)).child (String.ofList simple ++ ".java")

/-- Variables of the environment, by name. -/
abbrev Environment := List (String × String)

/-- The directory that a variable names, or the customary one. -/
def rootFrom (env : Environment) (name customary : String) : Path :=
  Path.ofString ((env.lookup name).getD customary)

/-- The root of the sources. -/
def sourceRoot (env : Environment) : Path :=
  rootFrom env "TEXTRES_SOURCE_DIR" "src/main/java"

/-- The root of the compiled resources. -/
def resourceRoot (env : Environment) : Path :=
  rootFrom env "TEXTRES_RESOURCE_DIR" "target/classes"

/-- The directory of the generated sources. -/
def outputRoot (env : Environment) : Path :=
  rootFrom env "TEXTRES_OUTPUT_DIR" "target/generated-sources/annotations"

end Layout

/-- The directories of one build. -/
structure Layout where
  /-- The roots of hand-written sources, which are searched for resources first. -/
  sources : List Path
  /-- The roots of compiled resources, which are searched for resources second. -/
  resources : List Path
  /-- Where providers are written. -/
  output : Path
deriving DecidableEq, Repr

end TextProviders
