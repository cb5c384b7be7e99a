/-!
The journal: what the parts of the generator note about their work, and how a note is shown.
-/

namespace TextProviders

/-- How much a note matters, from least to most. -/
inductive Level where
  | debug
  | info
  | warning
  | error
deriving DecidableEq, Repr

namespace Level

/-- The name of a level as it is shown. -/
def name : Level → String
  | debug => "DEBUG"
  | info => "INFO"
  | warning => "WARNING"
  | error => "ERROR"

/-- The place of a level in their order. -/
def rank : Level → Nat
  | debug => 0
  | info => 1
  | warning => 2
  | error => 3

end Level

/-- The part of the generator that makes a note. -/
inductive Component where
  | discovery
  | resolver
  | host
  | engine
deriving DecidableEq, Repr

/-- The name of a part as it is shown. -/
def Component.name : Component → String
  | discovery => "textresource_engine.declarations.discover"
  | resolver => "textresource_engine.resources.resolver"
  | host => "textresource_engine.host"
  | engine => "textresource_engine.engine"

/-- A note of one part of the generator. -/
structure Note where
  level : Level
  component : Component
  message : String
deriving DecidableEq, Repr

/-- The line that shows a note. -/
def Note.line (n : Note) : String :=
  n.level.name ++ "  " ++ n.component.name ++ ": " ++ n.message ++ "\n"

/-- The lines for the notes that matter at least as much as a level. -/
def Note.shown (threshold : Level) (notes : List Note) : String :=
  String.join ((notes.filter fun n => threshold.rank ≤ n.level.rank).map Note.line)

end TextProviders
