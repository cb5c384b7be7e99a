import TextProviders.Template.Substitute

/-!
The two provider templates and the store they are looked up in.

A store maps template names to texts.  The standard store holds one template for each strategy;
a store that lacks one stands for a broken installation.
-/

namespace TextProviders

/-- How a provider gets at the text: it reads the resource when asked, or carries the text. -/
inductive Strategy where
  | runtimeLoading
  | embeddedLiteral
deriving DecidableEq, Repr

/-- The name of the strategy's template. -/
def Strategy.templateId : Strategy → String
  | .runtimeLoading => "runtime-loading"
  | .embeddedLiteral => "embedded-literal"

namespace Template

/-- Lines as a text, each with its line end. -/
def unlines (lines : List String) : String :=
  String.join (lines.map (· ++ "\n"))

/-- The provider that loads its resource from the class path. -/
def runtimeLoading : String := unlines [
  "package $PACKAGE;",
  "",
  "import walkingkooka.resource.TextResource;",
  "import walkingkooka.resource.TextResourceException;",
  "import walkingkooka.resource.TextResources;",
  "",
  "/**",
  " * Provides the text of $RESOURCE, bound to \x7b@link $TYPE\x7d.",
  " * The resource is read from the class path each time it is requested.",
  " */",
  "@javax.annotation.processing.Generated(\"textresource-engine\")",
  "$VISIBILITYfinal class $NAME implements TextResource \x7b",
  "",
  "    public $NAME() \x7b",
  "        super();",
  "    \x7d",
  "",
  "    @Override",
  "    public String text() throws TextResourceException \x7b",
  "        return TextResources.classPath(\"$RESOURCE\", $NAME.class).text();",
  "    \x7d",
  "",
  "    @Override",
  "    public String toString() \x7b",
  "        return \"$RESOURCE\";",
  "    \x7d",
  "\x7d"]

/-- The provider that carries its text as a literal. -/
def embeddedLiteral : String := unlines [
  "package $PACKAGE;",
  "",
  "import walkingkooka.resource.TextResource;",
  "",
  "/**",
  " * Provides the text of $RESOURCE, bound to \x7b@link $TYPE\x7d.",
  " * The text was embedded when this source was generated.",
  " */",
  "@javax.annotation.processing.Generated(\"textresource-engine\")",
  "$VISIBILITYfinal class $NAME implements TextResource \x7b",
  "",
  "    public $NAME() \x7b",
  "        super();",
  "    \x7d",
  "",
  "    @Override",
  "    public String text() \x7b",
  "        return $TEXT;",
  "    \x7d",
  "",
  "    @Override",
  "    public String toString() \x7b",
  "        return \"$RESOURCE\";",
  "    \x7d",
  "\x7d"]

/-- Template names and texts. -/
abbrev Store := List (String × String)

/-- Both templates. -/
def standardStore : Store := [
  (Strategy.runtimeLoading.templateId, runtimeLoading),
  (Strategy.embeddedLiteral.templateId, embeddedLiteral)]

/-- A store without the templates of the given names. -/
def Store.without (store : Store) (ids : List String) : Store :=
  store.filter fun entry => !ids.contains entry.1

/-- A template that is not in the store, and the names that are, sorted. -/
structure Missing where
  id : String
  available : List String
deriving DecidableEq, Repr

/-- The text of a template. -/
def Store.load (store : Store) (id : String) : Except Missing String :=
  match store.find? fun entry => entry.1 == id with
  | some entry => .ok entry.2
  | none => .error ⟨id, (store.map (·.1)).mergeSort (· ≤ ·)⟩

/-- A template with its placeholders replaced. -/
def Store.render (store : Store) (id : String) (bindings : List Binding) :
    Except Missing String :=
  (store.load id).map fun template => substitute template bindings

end Template

end TextProviders
