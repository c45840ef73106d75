/-! Decompression of the zlib format. Bits are taken from the low end of each byte; a code is read
bit by bit against the number of codes of each length. -/

namespace MergeRisk.Inflate

/-- Compressed data and how many bits of it are used up. -/
structure Source where
  data : ByteArray
  position : Nat := 0

/-- Reading from a source; fails where the data do. -/
abbrev Reader := StateT Source Option

def bit : Reader Nat := fun source =>
  (source.data[source.position / 8]?).map fun byte =>
    (byte.toNat / Nat.pow 2 (source.position % 8) % 2, { source with position := source.position + 1 })

/-- A number of so many bits, the lowest first. -/
def bits : (count : Nat) → Reader Nat
  | 0 => return 0
  | count + 1 => do
    let low ← bit
    let high ← bits count
    return low + 2 * high

/-- Go on at the next whole byte. -/
def alignToByte : Reader Unit :=
  modify fun source => { source with position := (source.position + 7) / 8 * 8 }

/-- A prefix code: how many codes there are of each length from 1, and the symbols in the order of
their codes. -/
structure Code where
  counts : List Nat
  symbols : Array Nat

/-- The greatest length of a code. -/
def longest : Nat := 15

/-- The code in which each symbol has the given length; length 0 leaves a symbol out. -/
def Code.ofLengths (lengths : List Nat) : Code :=
  let ofLength (length : Nat) : List Nat :=
    lengths.zipIdx.filterMap fun (own, symbol) => if own = length then some symbol else none
  let groups := (List.range longest).map fun length => ofLength (length + 1)
  ⟨groups.map List.length, groups.flatten.toArray⟩

/-- Read a symbol: `value` is the code so far, `first` the first code of the current length, and
`index` the position of that code's symbol. -/
def symbolFrom (symbols : Array Nat) : (counts : List Nat) → (value first index : Nat) → Reader Nat
  | [], _, _, _ => failure
  | count :: counts, value, first, index => do
    let value := value + (← bit)
    if value < first + count then
      match symbols[index + (value - first)]? with
      | some symbol => return symbol
      | none => failure
    else symbolFrom symbols counts (2 * value) (2 * (first + count)) (index + count)

def Code.symbol (code : Code) : Reader Nat :=
  symbolFrom code.symbols code.counts 0 0 0

/-- The least value of a symbol and how many further bits it takes. -/
structure Range where
  base : Nat
  extra : Nat

/-- Ranges that follow each other, from the further bits of each. -/
def rangesFrom : (base : Nat) → (extras : List Nat) → List Range
  | _, [] => []
  | base, extra :: extras => ⟨base, extra⟩ :: rangesFrom (base + 2 ^ extra) extras

/-- The lengths of copies; the last symbol means the greatest length alone. -/
def lengthRanges : Array Range :=
  (rangesFrom 3 [0, 0, 0, 0, 0, 0, 0, 0, 1, 1, 1, 1, 2, 2, 2, 2, 3, 3, 3, 3, 4, 4, 4, 4, 5, 5, 5, 5] ++
    [Range.mk 258 0]).toArray

/-- How far back copies reach. -/
def distanceRanges : Array Range :=
  (rangesFrom 1 [0, 0, 0, 0, 1, 1, 2, 2, 3, 3, 4, 4, 5, 5, 6, 6, 7, 7, 8, 8, 9, 9, 10, 10, 11, 11, 12,
    12, 13, 13]).toArray

def rangeValue (ranges : Array Range) (symbol : Nat) : Reader Nat := do
  match ranges[symbol]? with
  | some range => return range.base + (← bits range.extra)
  | none => failure

/-- Append so many bytes from the given distance back. -/
def copy : (length distance : Nat) → ByteArray → Reader ByteArray
  | 0, _, output => return output
  | length + 1, distance, output =>
    match output[output.size - distance]? with
    | some byte =>
      if distance = 0 || output.size < distance then failure
      else copy length distance (output.push byte)
    | none => failure

/-- The symbol that ends a block. -/
def endOfBlock : Nat := 256

/-- Read the symbols of a block: bytes, copies, and its end. -/
def block (literals distances : Code) : (fuel : Nat) → ByteArray → Reader ByteArray
  | 0, _ => failure
  | fuel + 1, output => do
    let symbol ← literals.symbol
    if symbol < endOfBlock then block literals distances fuel (output.push (UInt8.ofNat symbol))
    else if symbol = endOfBlock then return output
    else
      let length ← rangeValue lengthRanges (symbol - (endOfBlock + 1))
      let distance ← rangeValue distanceRanges (← distances.symbol)
      block literals distances fuel (← copy length distance output)

/-- The codes of blocks that bring none along. -/
def standardLiterals : Code :=
  .ofLengths (List.replicate 144 8 ++ List.replicate 112 9 ++ List.replicate 24 7 ++
    List.replicate 8 8)

def standardDistances : Code :=
  .ofLengths (List.replicate 30 5)

/-- The order in which the lengths of the code for lengths are given. -/
def lengthOrder : List Nat := [16, 17, 18, 0, 8, 7, 9, 6, 10, 5, 11, 4, 12, 3, 13, 2, 14, 1, 15]

def readMany {α : Type} (read : Reader α) : (count : Nat) → Reader (List α)
  | 0 => return []
  | count + 1 => do
    let first ← read
    return first :: (← readMany read count)

/-- Read so many code lengths, some of which stand for runs. The lengths read so far are given last
one first. -/
def codeLengths (code : Code) (count : Nat) : (fuel : Nat) → (read : List Nat) → Reader (List Nat)
  | 0, _ => failure
  | fuel + 1, read =>
    if count ≤ read.length then
      if read.length = count then return read.reverse else failure
    else do
      let symbol ← code.symbol
      if symbol < 16 then codeLengths code count fuel (symbol :: read)
      else
        let (length, base, extra) :=
          if symbol = 16 then (read.headD 0, 3, 2) else if symbol = 17 then (0, 3, 3) else (0, 11, 7)
        let times := base + (← bits extra)
        codeLengths code count fuel (List.replicate times length ++ read)

/-- Read the two codes that a block brings along. -/
def ownCodes : Reader (Code × Code) := do
  let literalCount := 257 + (← bits 5)
  let distanceCount := 1 + (← bits 5)
  let given ← readMany (bits 3) (4 + (← bits 4))
  let lengths := (List.range 19).map fun symbol => ((lengthOrder.zip given).lookup symbol).getD 0
  let total := literalCount + distanceCount
  let all ← codeLengths (.ofLengths lengths) total (total + 1) []
  return (.ofLengths (all.take literalCount), .ofLengths (all.drop literalCount))

/-- A block whose bytes are stored as they are. -/
def storedBlock (output : ByteArray) : Reader ByteArray := do
  alignToByte
  let size ← bits 16
  let _ ← bits 16
  let source ← get
  let start := source.position / 8
  if source.data.size < start + size then failure
  set { source with position := (start + size) * 8 }
  return output ++ source.data.extract start (start + size)

/-- Read blocks up to the last one. -/
def blocks : (fuel : Nat) → ByteArray → Reader ByteArray
  | 0, _ => failure
  | fuel + 1, output => do
    let isLast := (← bit) = 1
    let kind ← bits 2
    let symbols := 8 * (← get).data.size
    let output ←
      if kind = 0 then storedBlock output
      else if kind = 1 then block standardLiterals standardDistances symbols output
      else if kind = 2 then do
        let (literals, distances) ← ownCodes
        block literals distances symbols output
      else failure
    if isLast then return output else blocks fuel output

/-- Decompress the zlib data that start at an offset. Each block and each symbol takes a bit at
least. -/
def zlib? (data : ByteArray) (offset : Nat) : Option ByteArray :=
  let headerSize := 2
  ((blocks (8 * data.size) .empty).run ⟨data, 8 * (offset + headerSize)⟩).map (·.1)

end MergeRisk.Inflate
