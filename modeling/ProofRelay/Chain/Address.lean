import ProofRelay.Bytes.Utf8
import ProofRelay.Datum
import ProofRelay.Digest.Keccak256

/-!
Account addresses: twenty bytes, written as `0x` and forty digits whose letters are capital where the
Keccak-256 digest of the lowercase digits has a high half-byte.
-/

namespace ProofRelay

structure Address where
  bytes : Bytes
  size : bytes.length = 20

namespace Address

def ofBytes? (bs : Bytes) : Option Address :=
  if h : bs.length = 20 then some ⟨bs, h⟩ else none

/-- Drops a leading `0x` of either case. -/
def dropMark : List Char → List Char
  | '0' :: x :: rest => if x == 'x' || x == 'X' then rest else '0' :: x :: rest
  | s => s

/-- Forty digits of any case, with or without the mark; the case of the letters is not checked. -/
def ofChars? (s : List Char) : Option Address := (Bytes.ofHex? (dropMark s)).bind ofBytes?

def ofString? (s : String) : Option Address := ofChars? s.toList

def ofDatum? : Datum → Option Address
  | .bytes bs => ofBytes? bs
  | .value (.str s) => s.toString?.bind ofString?
  | .value _ => none

/-- The half-bytes of a byte string. -/
def halves (bs : Bytes) : List Nat := bs.flatMap fun b => [b.toNat / 16, b.toNat % 16]

def checksumDigit (c : Char) (half : Nat) : Char := if 8 ≤ half then c.toUpper else c

def checksumChars (a : Address) : List Char :=
  let digits := Bytes.hexChars a.bytes
  List.zipWith checksumDigit digits (halves (Keccak256.digest (Utf8.encodeChars digits)))

/-- The address with its checksum. -/
def toString (a : Address) : String := "0x" ++ String.ofList a.checksumChars

end Address

end ProofRelay
