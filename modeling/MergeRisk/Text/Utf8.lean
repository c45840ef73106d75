/-! Texts in UTF-8. In decoding, bytes that belong to no character become the replacement character,
one for each longest run that starts a character without completing it. -/

namespace MergeRisk.Text

abbrev Bytes := List UInt8

/-- The bytes of a text. -/
def encode (text : String) : Bytes :=
  text.toUTF8.toList

def replacement : Char := Char.ofNat 0xFFFD

/-- What the first byte of a character promises: how many bytes follow, the bounds of the next one,
and the bits it contributes. -/
structure Lead where
  follow : Nat
  low : UInt8
  high : UInt8
  bits : Nat
deriving DecidableEq, Repr

/-- The bounds leave out overlong forms, surrogates and what lies above the last plane. -/
def lead? (byte : UInt8) : Option Lead :=
  if byte < 0x80 then some ⟨0, 0x80, 0xBF, byte.toNat⟩
  else if 0xC2 ≤ byte && byte ≤ 0xDF then some ⟨1, 0x80, 0xBF, byte.toNat - 0xC0⟩
  else if byte == 0xE0 then some ⟨2, 0xA0, 0xBF, 0⟩
  else if byte == 0xED then some ⟨2, 0x80, 0x9F, 0xD⟩
  else if 0xE1 ≤ byte && byte ≤ 0xEF then some ⟨2, 0x80, 0xBF, byte.toNat - 0xE0⟩
  else if byte == 0xF0 then some ⟨3, 0x90, 0xBF, 0⟩
  else if 0xF1 ≤ byte && byte ≤ 0xF3 then some ⟨3, 0x80, 0xBF, byte.toNat - 0xF0⟩
  else if byte == 0xF4 then some ⟨3, 0x80, 0x8F, 4⟩
  else none

/-- A character that has begun: the bytes still owed, the bounds of the next, the bits so far. -/
structure Pending where
  owed : Nat
  low : UInt8
  high : UInt8
  bits : Nat
deriving DecidableEq, Repr

/-- Start a character at a byte. -/
def begin (byte : UInt8) : List (Option Char) × Option Pending :=
  match lead? byte with
  | none => ([none], none)
  | some lead =>
    if lead.follow = 0 then ([some (Char.ofNat lead.bits)], none)
    else ([], some ⟨lead.follow, lead.low, lead.high, lead.bits⟩)

/-- Decode bytes; `none` stands for bytes that belong to no character. -/
def decodeFrom : Option Pending → Bytes → List (Option Char)
  | none, [] => []
  | some _, [] => [none]
  | none, byte :: bytes =>
    let (chars, pending) := begin byte
    chars ++ decodeFrom pending bytes
  | some pending, byte :: bytes =>
    if pending.low ≤ byte && byte ≤ pending.high then
      let bits := pending.bits * 64 + (byte.toNat - 0x80)
      if pending.owed ≤ 1 then some (Char.ofNat bits) :: decodeFrom none bytes
      else decodeFrom (some ⟨pending.owed - 1, 0x80, 0xBF, bits⟩) bytes
    else
      let (chars, next) := begin byte
      none :: chars ++ decodeFrom next bytes

/-- The text of bytes, if they are UTF-8 throughout. -/
def decode? (bytes : Bytes) : Option String :=
  ((decodeFrom none bytes).mapM id).map String.ofList

/-- The text of bytes, with the replacement character where they are not UTF-8. -/
def decodeLossy (bytes : Bytes) : String :=
  String.ofList ((decodeFrom none bytes).map (·.getD replacement))

end MergeRisk.Text
