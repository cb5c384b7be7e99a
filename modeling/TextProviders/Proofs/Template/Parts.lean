import TextProviders.Proofs.Source.Marked
import TextProviders.Proofs.Template.Providers

/-!
# The parts of a template

A template is itself a source, with placeholders in its code, in its comments and in its string literals,
and one that stands for a whole literal.  `partsOf` goes through the pieces of a template once and tells
these places apart.  A placeholder is placed if its value may stand where it does (`Part.IsPlaced`): the
names and the modifier in code, the name of the resource in comments and between quotes, the name of the
type in comments only.

Both templates are made of such parts (`arePlaced_partsOf`).  Their quotes stand in front of code, and no
annotation of theirs is the marker.
-/

namespace TextProviders.Template

/-- A stretch of a template: a piece of code, a comment or a string literal with the pieces inside it, or
the place of the text. -/
inductive Part where
  | code (p : Piece)
  | comment (body : List Piece)
  | string (body : List Piece)
  | text
deriving DecidableEq, Repr

namespace Part

/-- The pieces that a part is made of. -/
def pieces : Part → List Piece
  | code p => [p]
  | comment body => .keep '/' :: .keep '*' :: body ++ [.keep '*', .keep '/']
  | string body => .keep '"' :: body ++ [.keep '"']
  | text => [.hole textToken]

/-- A part that ends with a quote. -/
def endsInQuote : Part → Bool
  | string _ | text => true
  | code _ | comment _ => false

/-- What stands between the quotes of a string literal. -/
def body? : Part → Option (List Piece)
  | string body => some body
  | _ => none

/-- A character of code that stands in the template. -/
def isKept : Part → Bool
  | code (.keep _) => true
  | _ => false

end Part

/-! ## Finding the parts -/

/-- Where a walk over a template stands, with the pieces passed since it came there, nearest first. -/
inductive Stand where
  | code
  | comment (passed : List Piece)
  | string (passed : List Piece)

/-- The parts of the pieces from some place on.  What does not close is left out. -/
def partsFrom : Stand → List Piece → List Part
  | _, [] => []
  | .code, .keep '/' :: .keep '*' :: rest => partsFrom (.comment []) rest
  | .code, .keep '"' :: rest => partsFrom (.string []) rest
  | .code, p :: rest =>
    (if p = .hole textToken then .text else .code p) :: partsFrom .code rest
  | .comment passed, .keep '*' :: .keep '/' :: rest =>
    .comment passed.reverse :: partsFrom .code rest
  | .comment passed, p :: rest => partsFrom (.comment (p :: passed)) rest
  | .string passed, .keep '"' :: rest => .string passed.reverse :: partsFrom .code rest
  | .string passed, p :: rest => partsFrom (.string (p :: passed)) rest

/-- The parts of a template. -/
def partsOf (template : String) : List Part :=
  partsFrom .code (pieces template.toList)

/-! ## Placed parts -/

/-- A character of which something holds, or one of some placeholders. -/
def Piece.IsOf (kept : Char → Prop) (tokens : List String) : Piece → Prop
  | keep c => kept c
  | hole token => token ∈ tokens

instance (kept : Char → Prop) [DecidablePred kept] (tokens : List String) (p : Piece) :
    Decidable (p.IsOf kept tokens) :=
  match p with
  | .keep c => inferInstanceAs (Decidable (kept c))
  | .hole token => inferInstanceAs (Decidable (token ∈ tokens))

/-- The placeholders for what may stand in code. -/
def codeTokens : List String := ["$PACKAGE", "$NAME", "$VISIBILITY"]

/-- The placeholders for what may stand in comments. -/
def commentTokens : List String := ["$RESOURCE", "$TYPE"]

/-- The placeholders for what may stand between quotes. -/
def stringTokens : List String := ["$RESOURCE"]

/-- A part that is what it seems to be, with placeholders that belong there. -/
def Part.IsPlaced : Part → Prop
  | code p => p.IsOf (fun c => c ≠ '"' ∧ c ≠ '\'' ∧ c ≠ '/') codeTokens
  | comment body => ∀ p ∈ body, p.IsOf (· ≠ '/') commentTokens
  | string body => ∀ p ∈ body, p.IsOf (fun c => c ≠ '"' ∧ c ≠ '\\' ∧ c ≠ '\n') stringTokens
  | text => True

instance (p : Part) : Decidable p.IsPlaced :=
  match p with
  | .code p =>
      inferInstanceAs (Decidable (p.IsOf (fun c => c ≠ '"' ∧ c ≠ '\'' ∧ c ≠ '/') codeTokens))
  | .comment body => inferInstanceAs (Decidable (∀ p ∈ body, p.IsOf (· ≠ '/') commentTokens))
  | .string body =>
      inferInstanceAs (Decidable (∀ p ∈ body,
        p.IsOf (fun c => c ≠ '"' ∧ c ≠ '\\' ∧ c ≠ '\n') stringTokens))
  | .text => inferInstanceAs (Decidable True)

/-- The name that some parts start with, if the template says where it ends. -/
def nameAt? : List Part → Option (List Char)
  | .code (.keep c) :: rest => if Source.isNameChar c then (nameAt? rest).map (c :: ·) else some []
  | _ => none

/-- Every at sign of the code is followed by a name, and it is not the marker's. -/
def isUnmarked : List Part → Bool
  | [] => true
  | p :: rest =>
    (p ≠ .code (.keep '@') || (nameAt? rest).any fun name => ¬ Source.IsMarker name) && isUnmarked rest

/-- Parts whose placeholders are placed, with code behind every quote, and with no marker. -/
structure ArePlaced (ps : List Part) : Prop where
  placed : ∀ p ∈ ps, p.IsPlaced
  quotes : ps.IsChain fun p q => p.endsInQuote = true → q.isKept = true
  unmarked : isUnmarked ps = true

instance (ps : List Part) : Decidable (ArePlaced ps) :=
  decidable_of_iff ((∀ p ∈ ps, p.IsPlaced) ∧
      (ps.IsChain fun p q => p.endsInQuote = true → q.isKept = true) ∧ isUnmarked ps = true)
    ⟨fun ⟨placed, quotes, unmarked⟩ => ⟨placed, quotes, unmarked⟩,
      fun h => ⟨h.placed, h.quotes, h.unmarked⟩⟩

/-! ## The parts of both templates -/

/-- The string literal that names the generator. -/
def generatorLiteral : List Piece :=
  "textresource-engine".toList.map .keep

/-- How often a strategy's template names the resource in a string literal. -/
def requests : Strategy → Nat
  | .runtimeLoading => 2
  | .embeddedLiteral => 1

theorem parts_runtimeLoading :
    (partsOf runtimeLoading).flatMap Part.pieces = pieces runtimeLoading.toList ∧
      ArePlaced (partsOf runtimeLoading) ∧ .text ∉ partsOf runtimeLoading ∧
      (partsOf runtimeLoading).filterMap Part.body? =
        [generatorLiteral, [.hole "$RESOURCE"], [.hole "$RESOURCE"]] ∧
      .keep '\\' ∉ pieces runtimeLoading.toList := by
  rw [partsOf, runtimeLoading, toList_unlines]
  simp only [List.flatMap_cons, List.flatMap_nil]
  -- a literal is the text of its characters, which is not to be computed
  repeat rw [String.toList_ofList]
  decide +kernel

theorem parts_embeddedLiteral :
    (partsOf embeddedLiteral).flatMap Part.pieces = pieces embeddedLiteral.toList ∧
      ArePlaced (partsOf embeddedLiteral) ∧
      (partsOf embeddedLiteral).filterMap Part.body? = [generatorLiteral, [.hole "$RESOURCE"]] ∧
      .keep '\\' ∉ pieces embeddedLiteral.toList := by
  rw [partsOf, embeddedLiteral, toList_unlines]
  simp only [List.flatMap_cons, List.flatMap_nil]
  -- a literal is the text of its characters, which is not to be computed
  repeat rw [String.toList_ofList]
  decide +kernel

/-- **Both templates are made of placed parts.** -/
theorem arePlaced_partsOf (strategy : Strategy) : ArePlaced (partsOf strategy.template) := by
  cases strategy with
  | runtimeLoading => exact parts_runtimeLoading.2.1
  | embeddedLiteral => exact parts_embeddedLiteral.2.1

/-- The parts of a template together are the template. -/
theorem flatMap_pieces_partsOf (strategy : Strategy) :
    (partsOf strategy.template).flatMap Part.pieces = pieces strategy.template.toList := by
  cases strategy with
  | runtimeLoading => exact parts_runtimeLoading.1
  | embeddedLiteral => exact parts_embeddedLiteral.1

/-- A string literal of a template names the generator, or it is the name of the resource. -/
theorem strings_partsOf (strategy : Strategy) :
    (partsOf strategy.template).filterMap Part.body? =
      generatorLiteral :: List.replicate (requests strategy) [.hole "$RESOURCE"] := by
  cases strategy with
  | runtimeLoading => exact parts_runtimeLoading.2.2.2.1
  | embeddedLiteral => exact parts_embeddedLiteral.2.2.1

theorem backslash_not_mem_pieces (strategy : Strategy) :
    .keep '\\' ∉ pieces strategy.template.toList := by
  cases strategy with
  | runtimeLoading => exact parts_runtimeLoading.2.2.2.2
  | embeddedLiteral => exact parts_embeddedLiteral.2.2.2

end TextProviders.Template
