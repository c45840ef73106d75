import MergeRisk.Text.Utf8

/-! The SHA-1 digest, and the identifiers of file contents made with it. -/

namespace MergeRisk

open Text (Bytes)

namespace Sha1

/-- Rotate a word to the left. -/
def rotate (word : UInt32) (count : UInt32) : UInt32 :=
  (word <<< count) ||| (word >>> (32 - count))

/-- The bytes of a number, most significant first. -/
def bigEndian (value : Nat) : (count : Nat) → Bytes
  | 0 => []
  | count + 1 => (value / 256 ^ count).toUInt8 :: bigEndian value count

/-- A message followed by a one bit, zeros and its length in bits, in whole blocks. -/
def padded (message : Bytes) : Bytes :=
  let zeros := (119 - message.length % 64) % 64
  message ++ [0x80] ++ List.replicate zeros 0 ++ bigEndian (8 * message.length) 8

/-- The words of a message whose length is divisible by four. -/
def wordsOf : Bytes → List UInt32
  | a :: b :: c :: d :: rest =>
    ((a.toUInt32 <<< 24) ||| (b.toUInt32 <<< 16) ||| (c.toUInt32 <<< 8) ||| d.toUInt32) ::
      wordsOf rest
  | _ => []

/-- Lists of sixteen words each. -/
def blocksOf : (count : Nat) → List UInt32 → List (List UInt32)
  | 0, _ => []
  | count + 1, words => words.take 16 :: blocksOf count (words.drop 16)

/-- The schedule of a block, latest word first: each further word mixes four earlier ones. -/
def extend : (count : Nat) → List UInt32 → List UInt32
  | 0, latest => latest
  | count + 1, latest =>
    let word := latest.getD 2 0 ^^^ latest.getD 7 0 ^^^ latest.getD 13 0 ^^^ latest.getD 15 0
    extend count (rotate word 1 :: latest)

def schedule (block : List UInt32) : List UInt32 :=
  (extend 64 block.reverse).reverse

structure State where
  a : UInt32
  b : UInt32
  c : UInt32
  d : UInt32
  e : UInt32
deriving DecidableEq, Repr

def start : State := ⟨0x67452301, 0xEFCDAB89, 0x98BADCFE, 0x10325476, 0xC3D2E1F0⟩

/-- The mixing function and the constant of a round. -/
def mix (round : Nat) (state : State) : UInt32 × UInt32 :=
  if round < 20 then ((state.b &&& state.c) ||| (~~~state.b &&& state.d), 0x5A827999)
  else if round < 40 then (state.b ^^^ state.c ^^^ state.d, 0x6ED9EBA1)
  else if round < 60 then
    ((state.b &&& state.c) ||| (state.b &&& state.d) ||| (state.c &&& state.d), 0x8F1BBCDC)
  else (state.b ^^^ state.c ^^^ state.d, 0xCA62C1D6)

def step (state : State) (word : UInt32 × Nat) : State :=
  let (mixed, constant) := mix word.2 state
  { a := rotate state.a 5 + mixed + state.e + constant + word.1
    b := state.a
    c := rotate state.b 30
    d := state.c
    e := state.d }

def compress (state : State) (block : List UInt32) : State :=
  let last := (schedule block).zipIdx.foldl step state
  ⟨state.a + last.a, state.b + last.b, state.c + last.c, state.d + last.d, state.e + last.e⟩

/-- The five words of a message's digest. -/
def digest (message : Bytes) : State :=
  let words := wordsOf (padded message)
  (blocksOf (words.length / 16) words).foldl compress start

/-- Eight lower-case hexadecimal digits. -/
def hexWord (word : UInt32) : List Char :=
  let digits := Nat.toDigits 16 word.toNat
  List.replicate (8 - digits.length) '0' ++ digits

/-- The digest of a message in hexadecimal. -/
def hex (message : Bytes) : String :=
  let state := digest message
  String.ofList (hexWord state.a ++ hexWord state.b ++ hexWord state.c ++ hexWord state.d ++
    hexWord state.e)

end Sha1

/-- The identifier of what a repository holds: its digest after its kind and length. -/
def objectId (kind : String) (payload : Bytes) : String :=
  Sha1.hex (Text.encode (kind ++ " " ++ toString payload.length) ++ [0] ++ payload)

/-- The identifier of a file's content. -/
def contentId (content : Bytes) : String :=
  objectId "blob" content

end MergeRisk
