import TextProviders.Text.Digit

/-!
UTF-8: the bytes of a text, and strict reading of bytes with the place and reason of the first
fault.

A sequence is refused at the first byte that no well-formed sequence can have there, so the
shortest-form rule, the surrogates and the end of the code space need no test of their own: the
second byte's range depends on the first.  What is left over at the end of a block is a sequence
that more bytes could complete; `decode` refuses it, and a stream carries it into the next block.
-/

namespace TextProviders.Text.Utf8

/-- Why bytes are no text. -/
inductive Reason where
  | invalidStart
  | invalidContinuation
  | unexpectedEnd
deriving DecidableEq, Repr

/-- The first fault of a byte sequence: the refused bytes, and how many bytes precede them. -/
structure Fault where
  position : Nat
  bytes : List UInt8
  reason : Reason
deriving DecidableEq, Repr

/-- The bytes of one character. -/
def encodeChar (c : Char) : List UInt8 :=
  let n := c.toNat
  let tail (k : Nat) : UInt8 := UInt8.ofNat (0x80 + k % 0x40)
  if n < 0x80 then [UInt8.ofNat n]
  else if n < 0x800 then [UInt8.ofNat (0xc0 + n / 0x40), tail n]
  else if n < 0x10000 then [UInt8.ofNat (0xe0 + n / 0x1000), tail (n / 0x40), tail n]
  else [UInt8.ofNat (0xf0 + n / 0x40000), tail (n / 0x1000), tail (n / 0x40), tail n]

/-- The bytes of a text. -/
def encode (s : List Char) : List UInt8 :=
  s.flatMap encodeChar

/-- How many bytes follow a first byte; `none` if no sequence starts with it. -/
def tailLength? (first : UInt8) : Option Nat :=
  let b := first.toNat
  if b < 0x80 then some 0
  else if b < 0xc2 then none
  else if b < 0xe0 then some 1
  else if b < 0xf0 then some 2
  else if b < 0xf5 then some 3
  else none

/-- Whether a byte can stand second after a first byte of a sequence of at least two. -/
def isSecond (first second : UInt8) : Bool :=
  let b := second.toNat
  let low := if first.toNat = 0xe0 then 0xa0 else if first.toNat = 0xf0 then 0x90 else 0x80
  let high := if first.toNat = 0xed then 0x9f else if first.toNat = 0xf4 then 0x8f else 0xbf
  low ≤ b && b ≤ high

/-- Whether a byte can stand third or fourth. -/
def isLater (b : UInt8) : Bool :=
  0x80 ≤ b.toNat && b.toNat ≤ 0xbf

/-- The six bits that a later byte carries. -/
def bits (b : UInt8) : Nat :=
  b.toNat % 0x40

/-- Reads the complete sequences of a block that starts at the given position, and returns the
bytes of an incomplete one at its end. -/
def decodeBlock (position : Nat) : List UInt8 → Except Fault (List Char × List UInt8)
  | [] => .ok ([], [])
  | b :: rest =>
    match tailLength? b with
    | none => .error ⟨position, [b], .invalidStart⟩
    | some 0 =>
      (decodeBlock (position + 1) rest).map fun (s, left) => (Char.ofNat b.toNat :: s, left)
    | some tail =>
      match rest with
      | [] => .ok ([], [b])
      | b2 :: rest =>
        if !isSecond b b2 then .error ⟨position, [b], .invalidContinuation⟩
        else if tail = 1 then
          (decodeBlock (position + 2) rest).map fun (s, left) =>
            (Char.ofNat ((b.toNat - 0xc0) * 0x40 + bits b2) :: s, left)
        else
          match rest with
          | [] => .ok ([], [b, b2])
          | b3 :: rest =>
            if !isLater b3 then .error ⟨position, [b, b2], .invalidContinuation⟩
            else if tail = 2 then
              (decodeBlock (position + 3) rest).map fun (s, left) =>
                (Char.ofNat ((b.toNat - 0xe0) * 0x1000 + bits b2 * 0x40 + bits b3) :: s, left)
            else
              match rest with
              | [] => .ok ([], [b, b2, b3])
              | b4 :: rest =>
                if !isLater b4 then .error ⟨position, [b, b2, b3], .invalidContinuation⟩
                else
                  (decodeBlock (position + 4) rest).map fun (s, left) =>
                    (Char.ofNat ((b.toNat - 0xf0) * 0x40000 + bits b2 * 0x1000 + bits b3 * 0x40 +
                      bits b4) :: s, left)

theorem decodeBlock_nil (position : Nat) : decodeBlock position [] = .ok ([], []) := by
  rw [decodeBlock]

/-- The text of a whole byte sequence. -/
def decode (bytes : List UInt8) : Except Fault (List Char) :=
  match decodeBlock 0 bytes with
  | .error fault => .error fault
  | .ok (s, []) => .ok s
  | .ok (_, left) => .error ⟨bytes.length - left.length, left, .unexpectedEnd⟩

/-- The words for a reason. -/
def Reason.words : Reason → String
  | invalidStart => "invalid start byte"
  | invalidContinuation => "invalid continuation byte"
  | unexpectedEnd => "unexpected end of data"

/-- What is said about bytes that are no text: the byte itself if only one is refused. -/
def Fault.message (f : Fault) : String :=
  let what :=
    match f.bytes with
    | [b] => "byte 0x" ++ String.ofList (hexDigits b.toNat 2) ++ " in position " ++
        toString f.position
    | bytes => "bytes in position " ++ toString f.position ++ "-" ++
        toString (f.position + bytes.length - 1)
  "'utf-8' codec can't decode " ++ what ++ ": " ++ f.reason.words

end TextProviders.Text.Utf8
