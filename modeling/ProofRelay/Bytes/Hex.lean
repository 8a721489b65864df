import ProofRelay.Text.CodePoint

/-!
Byte strings and their hexadecimal text: two lowercase digits a byte when written, either case when read.
-/

namespace ProofRelay

abbrev Bytes := List UInt8

namespace Bytes

def hexDigits : List Char := "0123456789abcdef".toList

/-- The digit that stands for `n`, for `n < 16`. -/
def hexDigit (n : Nat) : Char := hexDigits.getD n '0'

def hexOfByte (b : UInt8) : List Char := [hexDigit (b.toNat / 16), hexDigit (b.toNat % 16)]

def hexChars (bs : Bytes) : List Char := bs.flatMap hexOfByte

def toHex (bs : Bytes) : String := String.ofList (hexChars bs)

def toHex0x (bs : Bytes) : String := "0x" ++ toHex bs

/-- The value of a hexadecimal digit of either case. -/
def hexValue? (c : Char) : Option Nat :=
  if '0' ≤ c && c ≤ '9' then some (c.toNat - '0'.toNat)
  else if 'a' ≤ c && c ≤ 'f' then some (c.toNat - 'a'.toNat + 10)
  else if 'A' ≤ c && c ≤ 'F' then some (c.toNat - 'A'.toNat + 10)
  else none

def byteOfDigits (hi lo : Nat) : UInt8 := UInt8.ofNat (16 * hi + lo)

/-- Reads pairs of digits and nothing else. -/
def ofHex? : List Char → Option Bytes
  | [] => some []
  | [_] => none
  | c :: d :: rest => do
    let hi ← hexValue? c
    let lo ← hexValue? d
    let bs ← ofHex? rest
    return byteOfDigits hi lo :: bs

/-- Reads pairs of digits, with ASCII blanks allowed before, between and after them. -/
def ofSpacedHex? : List Char → Option Bytes
  | [] => some []
  | [c] => if Text.isAsciiBlank c then some [] else none
  | c :: d :: rest =>
    if Text.isAsciiBlank c then ofSpacedHex? (d :: rest)
    else do
      let hi ← hexValue? c
      let lo ← hexValue? d
      let bs ← ofSpacedHex? rest
      return byteOfDigits hi lo :: bs

/-- The number that the bytes spell, most significant byte first. -/
def toNat (bs : Bytes) : Nat := bs.foldl (fun n b => 256 * n + b.toNat) 0

/-- The last `width` base-256 digits of `n`, most significant first. -/
def ofNatWidth : Nat → Nat → Bytes
  | 0, _ => []
  | width + 1, n => ofNatWidth width (n / 256) ++ [UInt8.ofNat n]

/-- The base-256 digits of `n` without leading zeros; zero has none. -/
def ofNat (n : Nat) : Bytes :=
  if n = 0 then [] else ofNat (n / 256) ++ [UInt8.ofNat n]
termination_by n
decreasing_by omega

end Bytes

end ProofRelay
