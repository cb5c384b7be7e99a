import TextProviders.Path
import TextProviders.Text.Quoted

/-!
A file system as a value: what stands at each place, and the operations of a generator on it.

Places are lists of names below the root.  A path is looked up part by part: every part but the
last has to name a directory, a double dot goes up, and names and paths have a greatest length.
Operations that change the file system return the new one also when they fail, since making the
directories of a path can fail half way.
-/

namespace TextProviders

/-- The names that lead from the root to a place. -/
abbrev Location := List String

/-- What stands at a place. -/
inductive Entry where
  | file (bytes : List UInt8)
  | directory
deriving DecidableEq, Repr

/-- Why a path cannot be used as an operation asks. -/
inductive AccessError where
  | notFound
  | alreadyThere
  | notDirectory
  | isDirectory
  | nameTooLong
  /-- The path holds a NUL, which no name can. -/
  | nul
deriving DecidableEq, Repr

/-- A path that could not be used, and why. -/
structure AccessFailure where
  error : AccessError
  path : Path
deriving DecidableEq, Repr

/-- The number and the words of an error, where the system has some. -/
def AccessError.numbered? : AccessError → Option (Nat × String)
  | notFound => some (2, "No such file or directory")
  | alreadyThere => some (17, "File exists")
  | notDirectory => some (20, "Not a directory")
  | isDirectory => some (21, "Is a directory")
  | nameTooLong => some (36, "File name too long")
  | nul => none

/-- What is said about a path that could not be used. -/
def AccessFailure.message (f : AccessFailure) : String :=
  match f.error.numbered? with
  | some (number, words) =>
    "[Errno " ++ toString number ++ "] " ++ words ++ ": " ++ Text.quoted f.path.text
  | none => "embedded null byte"

/-- The entries of a file system below its root, each at its place. -/
structure FileSystem where
  entries : List (Location × Entry) := []
deriving Repr

namespace FileSystem

/-- What stands at a place; the root is a directory. -/
def get? (fs : FileSystem) (loc : Location) : Option Entry :=
  if loc = [] then some .directory
  else (fs.entries.find? fun entry => entry.1 = loc).map (·.2)

/-- The file system with an entry removed. -/
def erase (fs : FileSystem) (loc : Location) : FileSystem :=
  ⟨fs.entries.filter fun entry => entry.1 ≠ loc⟩

/-- The file system with an entry put at a place. -/
def put (fs : FileSystem) (loc : Location) (e : Entry) : FileSystem :=
  ⟨(loc, e) :: (fs.erase loc).entries⟩

theorem get?_erase_self (fs : FileSystem) {loc : Location} (h : loc ≠ []) :
    (fs.erase loc).get? loc = none := by
  simp [get?, erase, h, List.find?_filter]

theorem get?_erase_of_ne (fs : FileSystem) {loc other : Location} (h : other ≠ loc) :
    (fs.erase loc).get? other = fs.get? other := by
  have same (a : Location × Entry) :
      (!decide (a.1 = loc) && decide (a.1 = other)) = decide (a.1 = other) := by
    by_cases ha : a.1 = other <;> simp [ha, h]
  simp [get?, erase, List.find?_filter, same]

theorem get?_put_self (fs : FileSystem) {loc : Location} (h : loc ≠ []) (e : Entry) :
    (fs.put loc e).get? loc = some e := by
  simp [get?, put, h]

theorem get?_put_of_ne (fs : FileSystem) {loc other : Location} (h : other ≠ loc) (e : Entry) :
    (fs.put loc e).get? other = fs.get? other := by
  rw [← get?_erase_of_ne fs h]
  simp [get?, put, Ne.symm h]

/-- The greatest length of a name, in bytes. -/
def maxName : Nat := 255

/-- The greatest length of a path, in bytes. -/
def maxPath : Nat := 4095

/-- Whether a path holds a NUL, which no name can. -/
@[irreducible] def holdsNul (p : Path) : Bool :=
  p.text.toList.contains '\x00'

/-- The directory that a part leads to from a directory. -/
def enter (fs : FileSystem) (dir : Location) (part : String) : Except AccessError Location :=
  if part = ".." then .ok dir.dropLast
  else if maxName < part.utf8ByteSize then .error .nameTooLong
  else
    match fs.get? (dir ++ [part]) with
    | none => .error .notFound
    | some (.file _) => .error .notDirectory
    | some .directory => .ok (dir ++ [part])

/-- The directory that parts lead to, one after the other. -/
def enterAll (fs : FileSystem) (dir : Location) : List String → Except AccessError Location
  | [] => .ok dir
  | part :: rest =>
    match fs.enter dir part with
    | .error e => .error e
    | .ok next => fs.enterAll next rest

/-- What a path names: a directory that is surely there, or a place that may be empty. -/
inductive Place where
  | directory (loc : Location)
  | at (loc : Location)
deriving DecidableEq, Repr

/-- Where a path leads from a working directory. -/
def locate (fs : FileSystem) (here : Location) (p : Path) : Except AccessError Place :=
  if holdsNul p then .error .nul
  else if maxPath < p.text.utf8ByteSize then .error .nameTooLong
  else
    let start := if p.anchor = .here then here else []
    match p.parts.getLast? with
    | none => .ok (.directory start)
    | some last =>
      match fs.enterAll start p.parts.dropLast with
      | .error e => .error e
      | .ok dir =>
        if last = ".." then .ok (.directory dir.dropLast)
        else if maxName < last.utf8ByteSize then .error .nameTooLong
        else .ok (.at (dir ++ [last]))

/-- What stands where a path leads. -/
def stat (fs : FileSystem) (here : Location) (p : Path) : Except AccessError Entry :=
  match fs.locate here p with
  | .error e => .error e
  | .ok (.directory _) => .ok .directory
  | .ok (.at loc) =>
    match fs.get? loc with
    | none => .error .notFound
    | some e => .ok e

/-- Whether an error only means that there is nothing of the kind at a path. -/
def AccessError.isAbsence : AccessError → Bool
  | .notFound | .notDirectory | .nul => true
  | .alreadyThere | .isDirectory | .nameTooLong => false

/-- Whether a path leads to a regular file. -/
def isFile (fs : FileSystem) (here : Location) (p : Path) : Except AccessFailure Bool :=
  match fs.stat here p with
  | .ok (.file _) => .ok true
  | .ok .directory => .ok false
  | .error e => if AccessError.isAbsence e then .ok false else .error ⟨e, p⟩

/-- Whether a path leads to a directory. -/
def isDirectory (fs : FileSystem) (here : Location) (p : Path) : Except AccessFailure Bool :=
  match fs.stat here p with
  | .ok .directory => .ok true
  | .ok (.file _) => .ok false
  | .error e => if AccessError.isAbsence e then .ok false else .error ⟨e, p⟩

/-- The bytes of the file that a path leads to. -/
def read (fs : FileSystem) (here : Location) (p : Path) : Except AccessFailure (List UInt8) :=
  match fs.stat here p with
  | .ok (.file bytes) => .ok bytes
  | .ok .directory => .error ⟨.isDirectory, p⟩
  | .error e => .error ⟨e, p⟩

/-- Makes a new entry where nothing stands yet, and says where. -/
def createNew (fs : FileSystem) (here : Location) (p : Path) (e : Entry) :
    Except AccessFailure (Location × FileSystem) :=
  match fs.locate here p with
  | .error err => .error ⟨err, p⟩
  | .ok (.directory _) => .error ⟨.alreadyThere, p⟩
  | .ok (.at loc) =>
    match fs.get? loc with
    | some _ => .error ⟨.alreadyThere, p⟩
    | none => .ok (loc, fs.put loc e)

/-- Makes one directory; it is no failure if there is one already. -/
def makeDir (fs : FileSystem) (here : Location) (p : Path) :
    FileSystem × Except AccessFailure Unit :=
  match fs.createNew here p .directory with
  | .ok (_, fs) => (fs, .ok ())
  | .error f =>
    if f.error = .notFound then (fs, .error f)
    else
      match fs.isDirectory here p with
      | .ok true => (fs, .ok ())
      | .ok false => (fs, .error f)
      | .error f => (fs, .error f)

/-- Makes a directory and, if it cannot be made because a directory above is missing, those first.
The count bounds how far up that goes; a path has no more directories above it than parts. -/
def makeDirsWithin (fs : FileSystem) (here : Location) (p : Path) :
    Nat → FileSystem × Except AccessFailure Unit
  | 0 => fs.makeDir here p
  | up + 1 =>
    match fs.makeDir here p with
    | (fs, .ok ()) => (fs, .ok ())
    | (fs, .error f) =>
      if f.error = .notFound then
        match makeDirsWithin fs here p.parent up with
        | (fs, .ok ()) => fs.makeDir here p
        | failed => failed
      else (fs, .error f)

/-- Makes a directory and the missing ones above it. -/
def makeDirs (fs : FileSystem) (here : Location) (p : Path) :
    FileSystem × Except AccessFailure Unit :=
  fs.makeDirsWithin here p p.parts.length

/-- Removes the file that a path leads to. -/
def unlink (fs : FileSystem) (here : Location) (p : Path) : Except AccessFailure FileSystem :=
  match fs.locate here p with
  | .error e => .error ⟨e, p⟩
  | .ok (.directory _) => .error ⟨.isDirectory, p⟩
  | .ok (.at loc) =>
    match fs.get? loc with
    | none => .error ⟨.notFound, p⟩
    | some .directory => .error ⟨.isDirectory, p⟩
    | some (.file _) => .ok (fs.erase loc)

/-- The bytes of the file at a place, with more bytes added at its end; nothing happens where no
file stands. -/
def append (fs : FileSystem) (loc : Location) (bytes : List UInt8) : FileSystem :=
  match fs.get? loc with
  | some (.file old) => fs.put loc (.file (old ++ bytes))
  | _ => fs

/-- Whether every place above a place, below a given one, is a directory. -/
def reaches (fs : FileSystem) (top : Location) : Location → Bool
  | [] => true
  | [_] => true
  | name :: rest =>
    fs.get? (top ++ [name]) = some .directory && fs.reaches (top ++ [name]) rest

/-- The entries below a directory, by their names from there. -/
def below (fs : FileSystem) (top : Location) : List (Location × Entry) :=
  fs.entries.filterMap fun (loc, e) =>
    if top.isPrefixOf loc && top.length < loc.length then
      let rest := loc.drop top.length
      if fs.reaches top rest then some (rest, e) else none
    else none

end FileSystem

end TextProviders
