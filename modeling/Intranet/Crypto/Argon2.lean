import Intranet.Crypto.Blake2b

/-!
# Argon2

The password hash that fills a memory of blocks, each made of the one before it and of one chosen
among the earlier ones: by a sequence that does not depend on the password, by the content of the
memory, or by the one first and the other afterwards.
-/

namespace Intranet.Crypto.Argon2

/-! ## Blocks -/

/-- A block of 1024 bytes: eight squares. -/
structure Block where
  r0 : Square
  r1 : Square
  r2 : Square
  r3 : Square
  r4 : Square
  r5 : Square
  r6 : Square
  r7 : Square

namespace Block

/-- The block of all zeros. -/
def zero : Block := ⟨.zero, .zero, .zero, .zero, .zero, .zero, .zero, .zero⟩

instance : Inhabited Block := ⟨zero⟩

/-- The block of 128 words. -/
def ofWords (ws : List UInt64) : Block :=
  let row (i : Nat) : Square := .ofList ((ws.drop (16 * i)).take 16)
  ⟨row 0, row 1, row 2, row 3, row 4, row 5, row 6, row 7⟩

/-- The squares of a block. -/
def rows (b : Block) : List Square := [b.r0, b.r1, b.r2, b.r3, b.r4, b.r5, b.r6, b.r7]

/-- The words of a block. -/
def words (b : Block) : List UInt64 := b.rows.flatMap Square.toList

/-- The exclusive or of two blocks. -/
def xor (a b : Block) : Block :=
  ⟨a.r0.xor b.r0, a.r1.xor b.r1, a.r2.xor b.r2, a.r3.xor b.r3,
    a.r4.xor b.r4, a.r5.xor b.r5, a.r6.xor b.r6, a.r7.xor b.r7⟩

/-- A block as eight rows of eight pairs of words, with rows and columns exchanged. -/
def transpose (b : Block) : Block :=
  ⟨⟨b.r0.w0, b.r0.w1, b.r1.w0, b.r1.w1, b.r2.w0, b.r2.w1, b.r3.w0, b.r3.w1,
      b.r4.w0, b.r4.w1, b.r5.w0, b.r5.w1, b.r6.w0, b.r6.w1, b.r7.w0, b.r7.w1⟩,
    ⟨b.r0.w2, b.r0.w3, b.r1.w2, b.r1.w3, b.r2.w2, b.r2.w3, b.r3.w2, b.r3.w3,
      b.r4.w2, b.r4.w3, b.r5.w2, b.r5.w3, b.r6.w2, b.r6.w3, b.r7.w2, b.r7.w3⟩,
    ⟨b.r0.w4, b.r0.w5, b.r1.w4, b.r1.w5, b.r2.w4, b.r2.w5, b.r3.w4, b.r3.w5,
      b.r4.w4, b.r4.w5, b.r5.w4, b.r5.w5, b.r6.w4, b.r6.w5, b.r7.w4, b.r7.w5⟩,
    ⟨b.r0.w6, b.r0.w7, b.r1.w6, b.r1.w7, b.r2.w6, b.r2.w7, b.r3.w6, b.r3.w7,
      b.r4.w6, b.r4.w7, b.r5.w6, b.r5.w7, b.r6.w6, b.r6.w7, b.r7.w6, b.r7.w7⟩,
    ⟨b.r0.w8, b.r0.w9, b.r1.w8, b.r1.w9, b.r2.w8, b.r2.w9, b.r3.w8, b.r3.w9,
      b.r4.w8, b.r4.w9, b.r5.w8, b.r5.w9, b.r6.w8, b.r6.w9, b.r7.w8, b.r7.w9⟩,
    ⟨b.r0.w10, b.r0.w11, b.r1.w10, b.r1.w11, b.r2.w10, b.r2.w11, b.r3.w10, b.r3.w11,
      b.r4.w10, b.r4.w11, b.r5.w10, b.r5.w11, b.r6.w10, b.r6.w11, b.r7.w10, b.r7.w11⟩,
    ⟨b.r0.w12, b.r0.w13, b.r1.w12, b.r1.w13, b.r2.w12, b.r2.w13, b.r3.w12, b.r3.w13,
      b.r4.w12, b.r4.w13, b.r5.w12, b.r5.w13, b.r6.w12, b.r6.w13, b.r7.w12, b.r7.w13⟩,
    ⟨b.r0.w14, b.r0.w15, b.r1.w14, b.r1.w15, b.r2.w14, b.r2.w15, b.r3.w14, b.r3.w15,
      b.r4.w14, b.r4.w15, b.r5.w14, b.r5.w15, b.r6.w14, b.r6.w15, b.r7.w14, b.r7.w15⟩⟩

/-- The product of the lower halves of two words, twice, with the words themselves. -/
@[inline] def blend (x y : UInt64) : UInt64 :=
  x + y + 2 * ((x &&& 0xffffffff) * (y &&& 0xffffffff))

/-- Mixes four words by sums and products. -/
@[inline] def mixQuad (q : Quad) : Quad :=
  let a := blend q.a q.b
  let d := rotr64 (q.d ^^^ a) 32
  let c := blend q.c d
  let b := rotr64 (q.b ^^^ c) 24
  let a := blend a b
  let d := rotr64 (d ^^^ a) 16
  let c := blend c d
  let b := rotr64 (b ^^^ c) 63
  ⟨a, b, c, d⟩

/-- Mixes the words of a square. -/
def mixSquare (s : Square) : Square := Square.mix (fun _ _ q => mixQuad q) s s

/-- Mixes each row of a block. -/
def mixRows (b : Block) : Block :=
  ⟨mixSquare b.r0, mixSquare b.r1, mixSquare b.r2, mixSquare b.r3,
    mixSquare b.r4, mixSquare b.r5, mixSquare b.r6, mixSquare b.r7⟩

/-- The block made of two others: their exclusive or, mixed by rows and by columns. -/
def compress (a b : Block) : Block :=
  let r := a.xor b
  r.xor r.mixRows.transpose.mixRows.transpose

end Block

/-! ## Parameters -/

/-- How earlier blocks are chosen. -/
inductive Variant where
  /-- By the content of the memory. -/
  | d
  /-- By a sequence of its own. -/
  | i
  /-- By a sequence of its own in the first half of the first pass, by the content afterwards. -/
  | id
  deriving DecidableEq, Repr

/-- The number of a variant. -/
def Variant.number : Variant → Nat
  | d => 0
  | i => 1
  | id => 2

/-- The version of the function. -/
inductive Version where
  /-- Later passes write over the blocks of earlier ones. -/
  | v16
  /-- Later passes mix into the blocks of earlier ones. -/
  | v19
  deriving DecidableEq, Repr

/-- The number of a version. -/
def Version.number : Version → Nat
  | v16 => 16
  | v19 => 19

/-- What a hash depends on besides the password and the salt. -/
structure Params where
  variant : Variant
  version : Version
  /-- The memory in blocks. -/
  memory : Nat
  passes : Nat
  lanes : Nat
  /-- The length of the result in bytes. -/
  length : Nat
  /-- Data that goes into the hash without being secret. -/
  data : List UInt8
  deriving DecidableEq, Repr

namespace Params

/-- The count of blocks that one lane fills in a quarter of a pass. -/
def segment (p : Params) : Nat := p.memory / (4 * p.lanes)

/-- The count of blocks of a lane. -/
def laneLength (p : Params) : Nat := 4 * p.segment

/-- The count of blocks of all lanes, which is the memory rounded down. -/
def blockCount (p : Params) : Nat := p.lanes * p.laneLength

end Params

/-! ## Hashes of any length -/

/-- The four bytes of a number, the lowest first. -/
def bytes32 (n : Nat) : List UInt8 := (bytesOfWord (UInt64.ofNat n)).take 4

/-- Bytes with their count in front. -/
def counted (bytes : List UInt8) : List UInt8 := bytes32 bytes.length ++ bytes

/-- The halves of a chain of hashes of sixty-four bytes each, and a last one of the given
length. -/
def chain (last : Nat) : Nat → List UInt8 → List UInt8
  | 0, v => Blake2b.hash last v
  | n + 1, v =>
    let v := Blake2b.hash 64 v
    v.take 32 ++ chain last n v

/-- A hash of so many bytes. -/
def longHash (length : Nat) (message : List UInt8) : List UInt8 :=
  let message := bytes32 length ++ message
  if length ≤ 64 then Blake2b.hash length message
  else
    let links := (length + 31) / 32 - 2
    chain (length - 32 * links) links message

/-! ## Filling the memory -/

/-- The hash from which the first blocks are made. -/
def seed (p : Params) (password salt : List UInt8) : List UInt8 :=
  Blake2b.hash 64 (bytes32 p.lanes ++ bytes32 p.length ++ bytes32 p.memory ++ bytes32 p.passes ++
    bytes32 p.version.number ++ bytes32 p.variant.number ++ counted password ++ counted salt ++
    counted [] ++ counted p.data)

/-- One of the first two blocks of a lane. -/
def firstBlock (seed : List UInt8) (lane index : Nat) : Block :=
  .ofWords (wordsOfBytes (longHash 1024 (seed ++ bytes32 index ++ bytes32 lane)))

/-- The memory with the first two blocks of every lane. -/
def firstBlocks (p : Params) (seed : List UInt8) : Array Block :=
  (List.range p.lanes).foldl
    (fun memory lane =>
      (memory.setIfInBounds (lane * p.laneLength) (firstBlock seed lane 0)).setIfInBounds
        (lane * p.laneLength + 1) (firstBlock seed lane 1))
    (Array.replicate p.blockCount .zero)

/-- The part of the memory that one lane fills in a quarter of a pass. -/
structure Segment where
  pass : Nat
  slice : Nat
  lane : Nat

namespace Segment

/-- Whether the choice of earlier blocks does not depend on the password. -/
def independent (s : Segment) (p : Params) : Bool :=
  match p.variant with
  | .d => false
  | .i => true
  | .id => s.pass = 0 && s.slice < 2

/-- A block of 128 choices of the sequence that does not depend on the password. -/
def choices (s : Segment) (p : Params) (counter : Nat) : Block :=
  let word (n : Nat) := UInt64.ofNat n
  let input := Block.ofWords
    ([word s.pass, word s.lane, word s.slice, word p.blockCount, word p.passes,
      word p.variant.number, word counter] ++ List.replicate 121 0)
  Block.zero.compress (Block.zero.compress input)

/-- The count of earlier blocks from which the block at an index of the segment may choose, in its
own lane or in another one. -/
def area (s : Segment) (p : Params) (index : Nat) (own : Bool) : Nat :=
  let finished := if s.pass = 0 then s.slice * p.segment else p.laneLength - p.segment
  if own then finished + index - 1 else if index = 0 then finished - 1 else finished

/-- The place of the earlier block that a choice means. -/
def reference (s : Segment) (p : Params) (index : Nat) (choice : UInt64) : Nat :=
  let high := (choice >>> 32).toNat
  let low := (choice &&& 0xffffffff).toNat
  let lane := if s.pass = 0 ∧ s.slice = 0 then s.lane else high % p.lanes
  let area := s.area p index (lane = s.lane)
  let distance := area * (low * low / Nat.pow 2 32) / Nat.pow 2 32
  let start := if s.pass = 0 ∨ s.slice = 3 then 0 else (s.slice + 1) * p.segment
  lane * p.laneLength + (start + (area - 1 - distance)) % p.laneLength

/-- Fills so many more blocks of a segment from an index on. The choices at hand are those for the
index, unless the index begins new ones. -/
def fill (s : Segment) (p : Params) : Nat → Nat → List UInt64 → Array Block → Array Block
  | 0, _, _, memory => memory
  | n + 1, index, sequence, memory =>
    let position := s.slice * p.segment + index
    let base := s.lane * p.laneLength
    let previous := memory.getD (base + (position + p.laneLength - 1) % p.laneLength) .zero
    let sequence :=
      if s.independent p ∧ sequence.isEmpty then
        (s.choices p (index / 128 + 1)).words.drop (index % 128)
      else sequence
    let choice := match sequence with
      | word :: _ => word
      | [] => previous.r0.w0
    let block := previous.compress (memory.getD (s.reference p index choice) .zero)
    let block :=
      if p.version = .v16 ∨ s.pass = 0 then block
      else block.xor (memory.getD (base + position) .zero)
    fill s p n (index + 1) sequence.tail (memory.setIfInBounds (base + position) block)

/-- Fills a segment. Its first two blocks are there already if it is the first of its lane. -/
def run (p : Params) (memory : Array Block) (s : Segment) : Array Block :=
  let first := if s.pass = 0 ∧ s.slice = 0 then 2 else 0
  s.fill p (p.segment - first) first [] memory

end Segment

/-- All segments in the order in which they are filled. -/
def segments (p : Params) : List Segment :=
  (List.range p.passes).flatMap fun pass =>
    (List.range 4).flatMap fun slice => (List.range p.lanes).map fun lane => ⟨pass, slice, lane⟩

/-- The exclusive or of the last blocks of all lanes. -/
def lastBlocks (p : Params) (memory : Array Block) : Block :=
  (List.range p.lanes).foldl
    (fun b lane => b.xor (memory.getD (lane * p.laneLength + p.laneLength - 1) .zero)) .zero

/-- The hash of a password with a salt. -/
def hash (p : Params) (password salt : List UInt8) : List UInt8 :=
  let memory := (segments p).foldl (Segment.run p) (firstBlocks p (seed p password salt))
  longHash p.length ((lastBlocks p memory).words.flatMap bytesOfWord)

end Intranet.Crypto.Argon2
