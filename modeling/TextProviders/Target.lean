import TextProviders.Declaration
import TextProviders.Template.Store

/-!
Targets: the two providers that a declaration asks for, and what their templates are bound to.
-/

namespace TextProviders

/-- What a strategy adds to the name of the type. -/
def Strategy.suffix : Strategy → String
  | .runtimeLoading => "Provider"
  | .embeddedLiteral => "ProviderJ2cl"

/-- One provider of one declaration. -/
structure Target where
  strategy : Strategy
  declaration : Declaration
deriving DecidableEq, Repr

namespace Target

/-- The dotted name of the provider. -/
def name (t : Target) : String :=
  t.declaration.name ++ t.strategy.suffix

/-- The name of the provider within its package. -/
def simpleName (t : Target) : String :=
  t.declaration.simpleName ++ t.strategy.suffix

/-- The package of the provider, which is that of the type. -/
def package (t : Target) : String :=
  t.declaration.package

/-- The text that a provider carries: collapsed if the binding asks for it. -/
def embeddedText (t : Target) (text : String) : String :=
  if t.declaration.binding.normalizeSpace then String.ofList (Text.collapse text.toList) else text

/-- What the placeholders of the target's template stand for, given the resource's file name and
text.  Only the provider that carries the text has a placeholder for it. -/
def bindings (t : Target) (resourceName text : String) : List Template.Binding :=
  [⟨"$PACKAGE", t.package⟩,
   ⟨"$NAME", t.simpleName⟩,
   ⟨"$VISIBILITY", t.declaration.visibility.modifier⟩,
   ⟨"$RESOURCE", resourceName⟩,
   ⟨"$TYPE", t.declaration.name⟩] ++
  match t.strategy with
  | .runtimeLoading => []
  | .embeddedLiteral => [⟨Template.textToken, t.embeddedText text⟩]

end Target

/-- The providers to generate, in order: the one that loads its resource comes first. -/
def Declaration.targets (d : Declaration) : List Target :=
  [⟨.runtimeLoading, d⟩, ⟨.embeddedLiteral, d⟩]

end TextProviders
