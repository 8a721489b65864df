import ProofRelay.Bytes.Hex
import ProofRelay.Text.CodePoint

/-!
UTF-8. Reading goes one sequence at a time; a defect covers the longest start of a sequence that could
still have been well formed, so that a reader may put one replacement character in its place.
-/

namespace ProofRelay.Utf8

/-- The bytes of a code point, by the general scheme that surrogates follow too. -/
def encodePoint (p : CodePoint) : Bytes :=
  let n := p.val
  if n < 0x80 then [UInt8.ofNat n]
  else if n < 0x800 then [UInt8.ofNat (0xC0 + n / 64), UInt8.ofNat (0x80 + n % 64)]
  else if n < 0x10000 then
    [UInt8.ofNat (0xE0 + n / 4096), UInt8.ofNat (0x80 + n / 64 % 64), UInt8.ofNat (0x80 + n % 64)]
  else
    [UInt8.ofNat (0xF0 + n / 262144), UInt8.ofNat (0x80 + n / 4096 % 64),
     UInt8.ofNat (0x80 + n / 64 % 64), UInt8.ofNat (0x80 + n % 64)]

def encodeChars (s : List Char) : Bytes := s.flatMap fun c => encodePoint (.ofChar c)

def encode (s : String) : Bytes := encodeChars s.toList

/-- What is wrong with the bytes at some position. -/
inductive Defect where
  | start
  | continuation
  | truncated
deriving DecidableEq, Repr

/-- What a first byte announces: how many bytes follow, and the range of the first of these. -/
structure Lead where
  follow : Nat
  low : Nat
  high : Nat

def lead? (b : UInt8) : Option Lead :=
  let n := b.toNat
  if n < 0x80 then some ⟨0, 0x80, 0xBF⟩
  else if n < 0xC2 then none
  else if n < 0xE0 then some ⟨1, 0x80, 0xBF⟩
  else if n = 0xE0 then some ⟨2, 0xA0, 0xBF⟩
  else if n = 0xED then some ⟨2, 0x80, 0x9F⟩
  else if n < 0xF0 then some ⟨2, 0x80, 0xBF⟩
  else if n = 0xF0 then some ⟨3, 0x90, 0xBF⟩
  else if n < 0xF4 then some ⟨3, 0x80, 0xBF⟩
  else if n = 0xF4 then some ⟨3, 0x80, 0x8F⟩
  else none

/-- The following bytes that fit, at most `follow` of them. -/
def fitting (l : Lead) : Bytes → Bytes
  | [] => []
  | b :: rest =>
    if l.follow = 0 then []
    else if l.low ≤ b.toNat && b.toNat ≤ l.high then
      b :: (rest.take (l.follow - 1)).takeWhile fun c => 0x80 ≤ c.toNat && c.toNat ≤ 0xBF
    else []

/-- The value of the payload bits of a first byte that `follow` bytes follow. -/
def leadBits (b : UInt8) (follow : Nat) : Nat :=
  if follow = 0 then b.toNat else b.toNat % Nat.pow 2 (6 - follow)

def assemble (b : UInt8) (tail : Bytes) : CodePoint :=
  CodePoint.ofNat (tail.foldl (fun n c => 64 * n + c.toNat % 64) (leadBits b tail.length))

/-- One step of reading: a code point, or a defect, and the number of bytes it covers. -/
inductive Piece where
  | point (p : CodePoint) (size : Nat)
  | defect (d : Defect) (size : Nat)

def Piece.size : Piece → Nat
  | .point _ n => n
  | .defect _ n => n

/-- The piece that starts with byte `b` when `rest` follows it. -/
def piece (b : UInt8) (rest : Bytes) : Piece :=
  match lead? b with
  | none => .defect .start 1
  | some l =>
    let tail := fitting l rest
    if tail.length = l.follow then .point (assemble b tail) (1 + tail.length)
    else if rest.length = tail.length then .defect .truncated (1 + tail.length)
    else .defect .continuation (1 + tail.length)

/-- Cuts the bytes into pieces. The size of a piece is at least one, so the first byte can be left. -/
def piecesFrom (done : List Piece) : Bytes → List Piece
  | [] => done.reverse
  | b :: rest =>
    let p := piece b rest
    piecesFrom (p :: done) (rest.drop (p.size - 1))
termination_by bs => bs.length
decreasing_by simp only [List.length_drop, List.length_cons]; omega

def pieces (bs : Bytes) : List Piece := piecesFrom [] bs

/-- Reads text, with U+FFFD in the place of each defect. -/
def decodeLossy (bs : Bytes) : String :=
  String.ofList ((pieces bs).map fun
    | .point p _ => p.toChar?.getD (Char.ofNat 0xFFFD)
    | .defect _ _ => Char.ofNat 0xFFFD)

/-- The first defect among the pieces, with its position and size. -/
def firstDefect (position : Nat) : List Piece → Option (Defect × Nat × Nat)
  | [] => none
  | .point _ n :: rest => firstDefect (position + n) rest
  | .defect d n :: _ => some (d, position, n)

def points (ps : List Piece) : Text :=
  ps.filterMap fun
    | .point p _ => some p
    | .defect _ _ => none

end ProofRelay.Utf8
