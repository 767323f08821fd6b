/-!
# Bytes as text

Strict and lossy decoding of UTF-8.  A well-formed sequence is one to four bytes
that encode a scalar value in the fewest bytes.  Where a sequence breaks off or
cannot be continued, the lossy decoder writes one replacement character for the
longest part that a well-formed sequence could begin with, and goes on with the
byte that broke it.
-/

namespace BridgeFinder.Text

/-- What a leading byte asks for: the number of bytes that continue it, the range
of the first of them, and the bits it carries itself. -/
structure Lead where
  more : Nat
  low : Nat
  high : Nat
  bits : Nat

/-- The demands of a leading byte, when it may lead a sequence of two or more. -/
def lead? (byte : Nat) : Option Lead :=
  if 0xC2 ≤ byte ∧ byte ≤ 0xDF then some ⟨1, 0x80, 0xBF, byte - 0xC0⟩
  else if byte = 0xE0 then some ⟨2, 0xA0, 0xBF, 0⟩
  else if byte = 0xED then some ⟨2, 0x80, 0x9F, 13⟩
  else if 0xE1 ≤ byte ∧ byte ≤ 0xEF then some ⟨2, 0x80, 0xBF, byte - 0xE0⟩
  else if byte = 0xF0 then some ⟨3, 0x90, 0xBF, 0⟩
  else if byte = 0xF4 then some ⟨3, 0x80, 0x8F, 4⟩
  else if 0xF1 ≤ byte ∧ byte ≤ 0xF3 then some ⟨3, 0x80, 0xBF, byte - 0xF0⟩
  else none

/-- The character that stands for bytes that are no text. -/
def replacement : Char := Char.ofNat 0xFFFD

/-- Decode `bytes`, giving `none` in the place of every part that is not
well-formed.  The first argument is the sequence that has begun, if any: the bytes it still
needs, the range of the next one, and the bits so far. -/
def decodeParts : Option Lead → List UInt8 → List (Option Char)
  | none, [] => []
  | some _, [] => [none]
  | pending, byte :: rest =>
      let n := byte.toNat
      let fresh (before : List (Option Char)) : List (Option Char) :=
        if n < 0x80 then before ++ some (Char.ofNat n) :: decodeParts none rest
        else match lead? n with
          | some lead => before ++ decodeParts (some lead) rest
          | none => before ++ none :: decodeParts none rest
      match pending with
      | none => fresh []
      | some lead =>
          if lead.low ≤ n ∧ n ≤ lead.high then
            let bits := lead.bits * 64 + (n - 0x80)
            if lead.more ≤ 1 then some (Char.ofNat bits) :: decodeParts none rest
            else decodeParts (some ⟨lead.more - 1, 0x80, 0xBF, bits⟩) rest
          else fresh [none]

/-- Decode `bytes`, writing the replacement character for every part that is not
well-formed. -/
def decodeLossy (bytes : List UInt8) : List Char :=
  (decodeParts none bytes).map (·.getD replacement)

/-- Decode `bytes` if they are well-formed throughout. -/
def decode? (bytes : List UInt8) : Option (List Char) :=
  (decodeParts none bytes).mapM id

/-- The bytes that encode `text`. -/
def encode (text : List Char) : List UInt8 :=
  text.flatMap String.utf8EncodeChar

/-- The number of bytes that encode `text`. -/
def byteLength (text : List Char) : Nat :=
  text.foldl (fun total c => total + c.utf8Size) 0

end BridgeFinder.Text
