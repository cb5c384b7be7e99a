import TextProviders.CommandLine.Options

/-!
The texts that the command line shows about itself.
-/

namespace TextProviders.CommandLine

/-- The name of the program. -/
def programName : String := "textres"

/-- The name of the program, or of one of its commands. -/
def nameOf : Option Command → String
  | none => programName
  | some c => programName ++ " " ++ c.word

/-- Lines as a text, each with its line end. -/
def linesText (lines : List String) : String :=
  String.join (lines.map (· ++ "\n"))

/-- The lines on how the program or a command is used. -/
def usageLines : Option Command → List String
  | none => [
    "usage: textres [-h] [--source-root SOURCE_ROOT]",
    "               [--resource-root RESOURCE_ROOT] [--output OUTPUT] [-v]",
    "               \x7bgenerate,plan,scan\x7d ..."]
  | some .generate => [
    "usage: textres generate [-h] [--manifest MANIFEST] [--workers WORKERS]"]
  | some .plan => ["usage: textres plan [-h] [--manifest MANIFEST]"]
  | some .scan => ["usage: textres scan [-h]"]

/-- The lines that explain the options. -/
def optionLines : Option Command → List String
  | none => [
    "Generate text resource providers for @TextResourceAware types",
    "",
    "positional arguments:",
    "  \x7bgenerate,plan,scan\x7d",
    "    generate            Generate missing providers",
    "    plan                Show provider targets and whether they exist",
    "    scan                List @TextResourceAware types in the source roots",
    "",
    "options:",
    "  -h, --help            show this help message and exit",
    "  --source-root SOURCE_ROOT",
    "                        Source tree searched first (repeatable, default:",
    "                        $TEXTRES_SOURCE_DIR)",
    "  --resource-root RESOURCE_ROOT",
    "                        Compiled resources searched second (repeatable,",
    "                        default: $TEXTRES_RESOURCE_DIR)",
    "  --output OUTPUT       Generated sources directory (default:",
    "                        $TEXTRES_OUTPUT_DIR)",
    "  -v, --verbose         Enable debug logging"]
  | some .generate => [
    "options:",
    "  -h, --help           show this help message and exit",
    "  --manifest MANIFEST  YAML manifest of declarations (default: scan source",
    "                       roots)",
    "  --workers WORKERS    Declarations processed in parallel (default 1)"]
  | some .plan => [
    "options:",
    "  -h, --help           show this help message and exit",
    "  --manifest MANIFEST  YAML manifest of declarations (default: scan source",
    "                       roots)"]
  | some .scan => [
    "options:",
    "  -h, --help  show this help message and exit"]

/-- The help of the program or of a command. -/
def helpText (command : Option Command) : String :=
  linesText (usageLines command ++ [""] ++ optionLines command)

/-- What is shown when arguments are refused. -/
def refusalText (command : Option Command) (r : Refusal) : String :=
  linesText (usageLines command ++ [nameOf command ++ ": error: " ++ r.message])

end TextProviders.CommandLine
