/-!
Cutting a text at a separating character: at every occurrence, or at the last one only.
-/

namespace TextProviders.Text

/-- The pieces between the occurrences of a separator; there is always at least one. -/
def splitOn {α : Type} [DecidableEq α] (sep : α) : List α → List (List α)
  | [] => [[]]
  | c :: rest =>
    if c = sep then [] :: splitOn sep rest
    else
      match splitOn sep rest with
      | [] => [[c]]
      | piece :: more => (c :: piece) :: more

/-- What stands before and after the last occurrence of a separator; without an occurrence nothing
stands before. -/
def splitLast (sep : Char) : List Char → List Char × List Char
  | [] => ([], [])
  | c :: rest =>
    if rest.contains sep then
      let (before, after) := splitLast sep rest
      (c :: before, after)
    else if c = sep then ([], rest) else ([], c :: rest)

end TextProviders.Text
