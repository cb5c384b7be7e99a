import TextProviders.CommandLine.Commands

/-!
The program: the command line, run on the real file system.

The directories and the manifest that the arguments name are read beforehand, the command is run on
what was read, and the files and directories that it added are written.
-/

namespace TextProviders.Main

open CommandLine

/-- Where a path leads, with double dots taken away. -/
def locationOf (here : Location) (p : Path) : Location :=
  p.parts.foldl (fun loc part => if part = ".." then loc.dropLast else loc ++ [part])
    (if p.anchor = .here then here else [])

/-- The text of a place, from the root. -/
def pathText (loc : Location) : String :=
  "/" ++ "/".intercalate loc

/-- What stands at a place and below it. -/
partial def readTree (loc : Location) : IO (List (Location × Entry)) := do
  let path := (← IO.currentDir) / pathText loc
  if ← path.isDir then
    let mut found := [(loc, Entry.directory)]
    for entry in ← path.readDir do
      found := found ++ (← readTree (loc ++ [entry.fileName]))
    return found
  else if ← path.pathExists then
    return [(loc, .file (← IO.FS.readBinFile path).toList)]
  else return []

/-- The directories on the way to a place. -/
def above (loc : Location) : List (Location × Entry) :=
  (List.range' 1 (loc.length - 1)).map fun n => (loc.take n, Entry.directory)

/-- The paths that an invocation reads or writes. -/
def pathsOf (env : Layout.Environment) : Invocation → List Path
  | .run (some _) s =>
    let directories :=
      match s.layout env with
      | .ok layout => layout.sources ++ layout.resources ++ [layout.output]
      | .error _ => []
    directories ++ (if s.manifest.isEmpty then [] else [Path.ofString s.manifest])
  | _ => []

/-- The working directory, and what stands at some places and below them. -/
def readPlaces (here : Location) (places : List Location) : IO FileSystem := do
  let mut files : FileSystem := ⟨(here, .directory) :: above here⟩
  for place in places do
    let found ← readTree place
    for (loc, e) in (if found.isEmpty then [] else above place) ++ found do
      files := files.put loc e
  return files

/-- Writes what a run added. -/
def writeAdded (before after : FileSystem) : IO Unit := do
  for (loc, e) in after.entries.reverse do
    if before.get? loc ≠ some e then
      match e with
      | .directory => IO.FS.createDirAll (pathText loc)
      | .file bytes =>
        IO.FS.createDirAll (pathText loc.dropLast)
        IO.FS.writeBinFile (pathText loc) ⟨bytes.toArray⟩

/-- The variables of the environment that name directories. -/
def readEnvironment : IO Layout.Environment := do
  let mut env := []
  for name in ["TEXTRES_SOURCE_DIR", "TEXTRES_RESOURCE_DIR", "TEXTRES_OUTPUT_DIR"] do
    if let some value ← IO.getEnv name then
      env := (name, value) :: env
  return env

/-- Runs the program and returns its status. -/
def run (arguments : List String) : IO UInt32 := do
  let env ← readEnvironment
  let here := (Path.ofString (← IO.currentDir).toString).parts
  let files ← readPlaces here ((pathsOf env (parse arguments)).map (locationOf here))
  let answer := CommandLine.run { files, here, environment := env } arguments
  writeAdded files answer.files
  IO.print answer.output
  IO.eprint answer.errors
  match answer.ending with
  | .exit status => return status.toUInt32
  | .failed kind message =>
    IO.eprintln (kind.name ++ ": " ++ message)
    return 1

end TextProviders.Main

/-- The entry of the program. -/
def main (arguments : List String) : IO UInt32 :=
  TextProviders.Main.run arguments
