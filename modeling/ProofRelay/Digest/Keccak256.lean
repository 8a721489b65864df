import ProofRelay.Bytes.Hex

/-!
The hash function Keccak-256: the sponge over the permutation of 25 lanes of 64 bits, with a rate of
136 bytes and the padding that starts with a single one bit.

The lane in column `x` and row `y` has number `x + 5 y`.
-/

namespace ProofRelay.Keccak256

abbrev Lanes := Array UInt64

def lane (s : Lanes) (x y : Nat) : UInt64 := s.getD (x % 5 + 5 * (y % 5)) 0

def roundConstants : List UInt64 :=
  [0x0000000000000001, 0x0000000000008082, 0x800000000000808A, 0x8000000080008000,
   0x000000000000808B, 0x0000000080000001, 0x8000000080008081, 0x8000000000008009,
   0x000000000000008A, 0x0000000000000088, 0x0000000080008009, 0x000000008000000A,
   0x000000008000808B, 0x800000000000008B, 0x8000000000008089, 0x8000000000008003,
   0x8000000000008002, 0x8000000000000080, 0x000000000000800A, 0x800000008000000A,
   0x8000000080008081, 0x8000000000008080, 0x0000000080000001, 0x8000000080008008]

/-- By how many bits each lane is rotated. -/
def rotations : List UInt64 :=
  [0, 1, 62, 28, 27, 36, 44, 6, 55, 20, 3, 10, 43, 25, 39, 41, 45, 15, 21, 8, 18, 2, 61, 56, 14]

def rotl (x n : UInt64) : UInt64 := if n = 0 then x else (x <<< n) ||| (x >>> (64 - n))

def column (s : Lanes) (x : Nat) : UInt64 :=
  lane s x 0 ^^^ lane s x 1 ^^^ lane s x 2 ^^^ lane s x 3 ^^^ lane s x 4

def mapLanes (f : Nat → Nat → UInt64) : Lanes :=
  ((List.range 25).map fun i => f (i % 5) (i / 5)).toArray

/-- Adds to each lane the parity of two neighbouring columns. -/
def theta (s : Lanes) : Lanes :=
  let c := ((List.range 5).map (column s)).toArray
  let d := fun x => c.getD ((x + 4) % 5) 0 ^^^ rotl (c.getD ((x + 1) % 5) 0) 1
  mapLanes fun x y => lane s x y ^^^ d x

/-- Rotates each lane and moves it to another place. -/
def rhoPi (s : Lanes) : Lanes :=
  let r := rotations.toArray
  mapLanes fun x y =>
    let x' := (x + 3 * y) % 5
    rotl (lane s x' x) (r.getD (x' + 5 * x) 0)

/-- Combines each lane with the next two of its row. -/
def chi (s : Lanes) : Lanes :=
  mapLanes fun x y => lane s x y ^^^ (~~~(lane s (x + 1) y) &&& lane s (x + 2) y)

def round (s : Lanes) (constant : UInt64) : Lanes :=
  let s := chi (rhoPi (theta s))
  s.setIfInBounds 0 (s.getD 0 0 ^^^ constant)

def permute (s : Lanes) : Lanes := roundConstants.foldl round s

/-- The number of bytes absorbed at a time. -/
def rate : Nat := 136

/-- A lane from its bytes, least significant first. -/
def laneOf (bs : Bytes) : UInt64 := UInt64.ofNat (Bytes.toNat bs.reverse)

def laneBytes (x : UInt64) : Bytes := (Bytes.ofNatWidth 8 x.toNat).reverse

def absorbBlock (s : Lanes) (block : Bytes) : Lanes :=
  permute (((List.range 17).map fun i => s.getD i 0 ^^^ laneOf ((block.drop (8 * i)).take 8)) ++
    s.toList.drop 17).toArray

/-- A one bit, zeros, and a one bit as the last of the block. -/
def pad (message : Bytes) : Bytes :=
  let short := rate - message.length % rate
  message ++ (if short = 1 then [0x81] else 0x01 :: (List.replicate (short - 2) 0 ++ [0x80]))

def absorb : Nat → Lanes → Bytes → Lanes
  | 0, s, _ => s
  | count + 1, s, bytes => absorb count (absorbBlock s (bytes.take rate)) (bytes.drop rate)

/-- The digest: 32 bytes. -/
def digest (message : Bytes) : Bytes :=
  let padded := pad message
  let s := absorb (padded.length / rate) (List.replicate 25 0).toArray padded
  ((List.range 4).map fun i => s.getD i 0).flatMap laneBytes

end ProofRelay.Keccak256
