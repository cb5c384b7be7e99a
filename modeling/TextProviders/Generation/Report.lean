/-!
The report of a run: what happened to each declaration, and the summary that is shown.
-/

namespace TextProviders

/-- What happened to one declaration. -/
structure Outcome where
  /-- The dotted name of the type. -/
  name : String
  /-- The providers that were written. -/
  written : List String := []
  /-- The providers that existed already. -/
  skipped : List String := []
  /-- The text of the failure, if there was one. -/
  error : Option String := none
deriving DecidableEq, Repr

/-- Whether a declaration did not fail. -/
def Outcome.ok (o : Outcome) : Bool :=
  o.error.isNone

/-- The outcomes of a run, in the order of the declarations. -/
structure Report where
  outcomes : List Outcome := []
deriving DecidableEq, Repr

namespace Report

/-- All providers that were written. -/
def written (r : Report) : List String :=
  r.outcomes.flatMap (·.written)

/-- All providers that existed already. -/
def skipped (r : Report) : List String :=
  r.outcomes.flatMap (·.skipped)

/-- The names and texts of failures that have a text. -/
def errors (r : Report) : List (String × String) :=
  r.outcomes.filterMap fun o =>
    match o.error with
    | some text => if text.isEmpty then none else some (o.name, text)
    | none => none

/-- Whether no declaration failed. -/
def ok (r : Report) : Bool :=
  r.outcomes.all (·.ok)

/-- The lines about failures. -/
def errorLines (r : Report) : List String :=
  if r.errors.isEmpty then []
  else
    ("\nErrors: " ++ toString r.errors.length) ::
      r.errors.map fun (name, text) => "  " ++ name ++ ": " ++ text

/-- The summary of a run. -/
def summary (r : Report) : String :=
  "\n".intercalate <|
    ("Providers: " ++ toString r.outcomes.length ++ " declarations, " ++
        toString r.written.length ++ " written, " ++ toString r.skipped.length ++ " skipped") ::
      r.written.map ("  + " ++ ·) ++ r.errorLines

end Report

end TextProviders
