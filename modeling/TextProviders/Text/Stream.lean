import TextProviders.Number.Double
import TextProviders.Text.Lines
import TextProviders.Text.Utf8

/-!
Text that is read from a stream of bytes, portion by portion.

Bytes are taken in blocks.  A block is larger where the characters of the block before took more
bytes each, so that it holds what is wanted.  The bytes of a sequence that a block does not complete
are carried into the next one, and a carriage return that ends a block is held back, since a line
feed may follow.  A fault is found with the block that it is in, and its position counts from the
start of that block, or of what is carried into it.
-/

namespace TextProviders.Text

/-- A stream of bytes that is read as text. -/
structure Stream where
  /-- The bytes that are not taken. -/
  bytes : List UInt8
  /-- The bytes of a sequence that is not complete. -/
  carried : List UInt8 := []
  /-- Whether a carriage return is held back. -/
  held : Bool := false
  /-- The text that is taken and not handed out. -/
  ready : List Char := []
  /-- How many bytes a character took in the last block. -/
  weight : Double := .zero
deriving DecidableEq, Repr

namespace Stream

/-- The least size of a block. -/
def blockSize : Nat := 8192

/-- How many characters a portion holds. -/
def portionSize : Nat := 4096

/-- The size of the block that is taken where some characters are wanted. -/
def sizeFor (s : Stream) (wanted : Nat) : Nat :=
  max blockSize (max wanted (s.weight.mul (Double.ofNat wanted)).floor)

/-- Takes a block; tells whether the stream was at its end. -/
def takeBlock (s : Stream) (wanted : Nat) : Except Utf8.Fault (Bool × Stream) :=
  let size := s.sizeFor wanted
  let block := s.bytes.take size
  let isLast := block.isEmpty
  match Utf8.decodeBlock 0 (s.carried ++ block) with
  | .error f => .error f
  | .ok (decoded, left) =>
    if isLast && !left.isEmpty then .error ⟨0, left, .unexpectedEnd⟩
    else
      let whole := if s.held then '\r' :: decoded else decoded
      let held : Bool := !isLast && whole.getLast? = some '\r'
      let text := unifyLineEnds (if held then whole.dropLast else whole)
      .ok (isLast && text.isEmpty,
        { bytes := s.bytes.drop size
          carried := left
          held
          ready := text
          weight := Double.ofRatio false (if text.isEmpty then 0 else block.length) text.length })

/-- Reads so many characters, or all that are left if those are fewer.  The count bounds the
blocks. -/
def readUpTo : Nat → Nat → Stream → Except Utf8.Fault (List Char × Stream)
  | 0, _, s => .ok ([], s)
  | count + 1, wanted, s =>
    let taken := s.ready.take wanted
    let missing := wanted - taken.length
    let s := { s with ready := s.ready.drop wanted }
    if missing = 0 then .ok (taken, s)
    else
      match s.takeBlock missing with
      | .error f => .error f
      | .ok (true, s) => .ok (taken, s)
      | .ok (false, s) => (readUpTo count missing s).map fun (more, s) => (taken ++ more, s)

/-- Reads a portion.  Every block but the last two completes a character. -/
def read (s : Stream) : Except Utf8.Fault (List Char × Stream) :=
  s.readUpTo (portionSize + 3) portionSize

/-- The portions of the text that is left, and the fault that ends it, if one does.  The count
bounds the portions. -/
def portionsFrom : Nat → Stream → List (List Char) × Option Utf8.Fault
  | 0, _ => ([], none)
  | count + 1, s =>
    match s.read with
    | .error f => ([], some f)
    | .ok (portion, s) =>
      if portion.isEmpty then ([], none)
      else
        let (more, fault) := portionsFrom count s
        (portion :: more, fault)

end Stream

/-- The portions in which the text of bytes is read, and the fault that ends it, if one does. -/
def portions (bytes : List UInt8) : List (List Char) × Option Utf8.Fault :=
  Stream.portionsFrom (bytes.length + 1) { bytes }

end TextProviders.Text
