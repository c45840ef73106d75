import MergeRisk.Storage.Inflate
import MergeRisk.Storage.Object

/-! Packs: many objects in one file, found through an index. A packed object may be stored as the
changes to another one. -/

namespace MergeRisk.Storage

structure Pack where
  index : ByteArray
  data : ByteArray

/-- A number of so many bytes, the highest first. -/
def numberAt (bytes : ByteArray) (offset size : Nat) : Nat :=
  (bytes.extract offset (offset + size)).foldl (fun value byte => value * 256 + byte.toNat) 0

namespace Pack

/-- Where the cumulated counts of identifiers by first byte start. -/
def countsStart : Nat := 8

def idsStart : Nat := countsStart + 256 * 4

/-- How many identifiers start with this byte or a lower one. -/
def countUpTo (pack : Pack) (byte : Nat) : Nat :=
  numberAt pack.index (countsStart + 4 * byte) 4

def size (pack : Pack) : Nat :=
  pack.countUpTo 255

def idAt (pack : Pack) (position : Nat) : String :=
  let start := idsStart + idSize * position
  Text.hexText (pack.index.extract start (start + idSize)).toList

/-- The offset of an object's data; large offsets are in a table of their own. -/
def offsetAt (pack : Pack) (position : Nat) : Nat :=
  let offsetsStart := idsStart + (idSize + 4) * pack.size
  let offset := numberAt pack.index (offsetsStart + 4 * position) 4
  if offset < Nat.pow 2 31 then offset
  else numberAt pack.index (offsetsStart + 4 * pack.size + 8 * (offset - Nat.pow 2 31)) 8

/-- The value of two hexadecimal digits at the start of an identifier. -/
def firstByte (id : String) : Nat :=
  ((Text.hexBytes (id.toList.take 2)).headD 0).toNat

/-- The offset of an object by its identifier. -/
def offset? (pack : Pack) (id : String) : Option Nat :=
  let first := firstByte id
  let start := if first = 0 then 0 else pack.countUpTo (first - 1)
  let positions := List.range' start (pack.countUpTo first - start)
  (positions.find? fun position => pack.idAt position == id).map pack.offsetAt

end Pack

/-! ### Numbers in packs -/

/-- A number in groups of seven bits, the lowest first, and the offset behind it. -/
def groupsAt (bytes : ByteArray) : (fuel : Nat) → (offset : Nat) → Nat × Nat
  | 0, offset => (0, offset)
  | fuel + 1, offset =>
    let byte := (bytes[offset]?.getD 0).toNat
    if byte < 128 then (byte, offset + 1)
    else
      let (high, next) := groupsAt bytes fuel (offset + 1)
      (byte - 128 + 128 * high, next)

/-- The distance back to a base object: groups of seven bits, the highest first, where each further
group adds one to those before it. -/
def distanceAt (bytes : ByteArray) : (fuel : Nat) → (offset value : Nat) → Nat × Nat
  | 0, offset, value => (value, offset)
  | fuel + 1, offset, value =>
    let byte := (bytes[offset]?.getD 0).toNat
    if byte < 128 then (value * 128 + byte, offset + 1)
    else distanceAt bytes fuel (offset + 1) (value * 128 + (byte - 128) + 1)

/-- As many groups as a number can have. -/
def groupLimit : Nat := 10

/-! ### Changes -/

/-- A number whose bytes are present as the low bits of a mask say, and the offset behind it. -/
def maskedAt (bytes : ByteArray) : (count mask offset : Nat) → Nat × Nat
  | 0, _, offset => (0, offset)
  | count + 1, mask, offset =>
    let isPresent := mask % 2 = 1
    let low := if isPresent then (bytes[offset]?.getD 0).toNat else 0
    let (high, next) := maskedAt bytes count (mask / 2) (if isPresent then offset + 1 else offset)
    (low + 256 * high, next)

/-- Follow instructions: copy a range of the base, or insert bytes that come along. The fuel is the
number of bytes of the changes. -/
def applyFrom (base changes : ByteArray) : (fuel offset : Nat) → ByteArray → Option ByteArray
  | 0, _, output => some output
  | fuel + 1, offset, output =>
    match changes[offset]? with
    | none => some output
    | some byte =>
      let code := byte.toNat
      if code = 0 then none
      else if code < 128 then
        applyFrom base changes fuel (offset + 1 + code)
          (output ++ changes.extract (offset + 1) (offset + 1 + code))
      else
        let (start, next) := maskedAt changes 4 code (offset + 1)
        let (size, next) := maskedAt changes 3 (code / 16) next
        let size := if size = 0 then 65536 else size
        applyFrom base changes fuel next (output ++ base.extract start (start + size))

/-- Apply changes to a base; the sizes of both come first. -/
def applyChanges (base changes : ByteArray) : Option ByteArray :=
  let (_, offset) := groupsAt changes groupLimit 0
  let (_, offset) := groupsAt changes groupLimit offset
  applyFrom base changes changes.size offset .empty

/-! ### Packed objects -/

/-- The kind of an object that is stored whole. -/
def wholeKind? : Nat → Option ObjectKind
  | 1 => some .commit
  | 2 => some .tree
  | 3 => some .content
  | 4 => some .tag
  | _ => none

/-- The object at an offset. An object stored as changes needs its base, which the pack holds too,
so many bytes before it or under an identifier. -/
def Pack.objectAt (pack : Pack) : (fuel offset : Nat) → Option StoredObject
  | 0, _ => none
  | fuel + 1, offset =>
    let head := (pack.data[offset]?.getD 0).toNat
    let next := if head < 128 then offset + 1 else (groupsAt pack.data groupLimit (offset + 1)).2
    let changed (base : Nat) (start : Nat) : Option StoredObject := do
      let base ← pack.objectAt fuel base
      return ⟨base.kind, ← applyChanges base.payload (← Inflate.zlib? pack.data start)⟩
    match head / 16 % 8 with
    | 6 =>
      let (distance, next) := distanceAt pack.data groupLimit next 0
      changed (offset - distance) next
    | 7 => do
      let id := Text.hexText (pack.data.extract next (next + idSize)).toList
      changed (← pack.offset? id) (next + idSize)
    | code => do return ⟨← wholeKind? code, ← Inflate.zlib? pack.data next⟩

/-- An object by its identifier. A chain of bases is at most as long as the pack. -/
def Pack.object? (pack : Pack) (id : String) : Option StoredObject := do
  pack.objectAt pack.size (← pack.offset? id)

end MergeRisk.Storage
