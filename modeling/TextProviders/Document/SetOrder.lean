import TextProviders.Document.Value

/-!
The order in which a set lists its members.

A set of numbers keeps them in places, of which there are more than twice as many as members, and
lists them place by place.  A number goes by its residue, which is the same for numbers that are
equal: to the place that the residue names or, where that is taken, to the first free one close
behind it or further on.  A set that holds anything but numbers lists its members as they are
written.
-/

namespace TextProviders.Document.SetOrder

/-- Residues are taken by this prime. -/
def modulus : Nat := Nat.pow 2 61 - 1

/-- A residue with a sign.  The number one below zero is not used. -/
def signed (negative : Bool) (residue : Nat) : Int :=
  let r := Double.signed negative residue
  if r = -1 then -2 else r

/-- The residue of a number.  Two to the power of sixty-one leaves one, so powers of two below the
point are powers above it. -/
def residue? : Value → Option Int
  | .flag b => some (if b then 1 else 0)
  | .whole n => some (signed (n < 0) (n.natAbs % modulus))
  | .real (.finite negative m e) =>
    some (signed negative (m * Nat.pow 2 (e % 61).toNat % modulus))
  | .real (.infinite negative) => some (signed negative 314159)
  | _ => none

/-- The places of a set, of which some are taken. -/
abbrev Places := Array (Option Value)

/-- How many places a set with so many members has. -/
def placeCount (members : Nat) : Nat :=
  if members ≤ 4 then 8 else Nat.pow 2 ((2 * members).log2 + 1)

/-- How many places behind a place belong to it. -/
def reach : Nat := 9

/-- The free place for a residue, looked for from a place on; what is left of the residue takes the
search elsewhere.  The count bounds the places that are tried. -/
def freePlace (places : Places) : Nat → Nat → Nat → Nat
  | 0, _, start => start
  | count + 1, left, start =>
    let near := if start + reach < places.size then reach + 1 else 1
    match (List.range' start near).find? fun i => places[i]? = some none with
    | some i => i
    | none =>
      let left := left / 32
      freePlace places count left ((start * 5 + 1 + left) % places.size)

/-- Puts a number with a residue into its place. -/
def put (places : Places) (member : Value × Int) : Places :=
  let residue := (member.2 % (Nat.pow 2 64 : Nat)).toNat
  let i := freePlace places (places.size + 13) residue (residue % places.size)
  places.setIfInBounds i (some member.1)

/-- The members of a set, in the order in which it lists them. -/
def arrange (members : List Value) : List Value :=
  match members.mapM residue? with
  | none => members
  | some residues =>
    let empty : Places := Array.replicate (placeCount members.length) none
    ((members.zip residues).foldl put empty).toList.filterMap id

end TextProviders.Document.SetOrder
