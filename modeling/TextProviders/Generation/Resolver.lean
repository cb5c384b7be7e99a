import TextProviders.Generation.Failure
import TextProviders.Journal
import TextProviders.Layout

/-!
Finding the text of a resource.

The roots are tried in order, those of the sources before those of the compiled resources.  The
first root under which the file is not simply absent decides: its text is the answer, or the reason
why it has none.  Line ends and a byte order mark are kept.
-/

namespace TextProviders

namespace Layout

/-- The roots in the order in which they are searched for resources. -/
def searchRoots (layout : Layout) : List Path :=
  layout.sources ++ layout.resources

end Layout

namespace Resolver

/-- Where a resource would be below a root. -/
def pathUnder (root : Path) (name : ResourceName) : Path :=
  (Layout.packageDir root name.package).child name.fileName

/-- The note that a resource is absent under a root. -/
def absentNote (name : ResourceName) (root : Path) : Note :=
  ⟨.debug, .resolver, "Resource " ++ name.fileName ++ " not under " ++ root.text⟩

/-- The note that a resource was found. -/
def foundNote (name : ResourceName) (path : Path) : Note :=
  ⟨.debug, .resolver, "Resolved " ++ name.fileName ++ " from " ++ path.text⟩

/-- Searches the roots in order, and notes what is found or absent. -/
def search (fs : FileSystem) (here : Location) (name : ResourceName) :
    List Path → List Note × Except GenerationFailure String
  | [] => ([], .error (.resource name .notFound))
  | root :: rest =>
    let path := pathUnder root name
    match fs.read here path with
    | .ok bytes =>
      match Text.Utf8.decode bytes with
      | .ok text => ([foundNote name path], .ok (String.ofList text))
      | .error f => ([], .error (.resource name (.undecodable f)))
    | .error f =>
      match f.error with
      | .notFound =>
        let (notes, answer) := search fs here name rest
        (absentNote name root :: notes, answer)
      | .nul => ([], .error (.access f))
      | _ => ([], .error (.resource name (.access f)))

/-- The text of a resource in a layout. -/
def resolve (fs : FileSystem) (here : Location) (layout : Layout) (name : ResourceName) :
    List Note × Except GenerationFailure String :=
  search fs here name layout.searchRoots

end Resolver

end TextProviders
