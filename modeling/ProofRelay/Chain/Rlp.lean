import ProofRelay.Bytes.Hex
import ProofRelay.Fault

/-!
The recursive length encoding of lists of byte strings: a byte below 0x80 stands for itself, anything
else is preceded by its length. `decodeList?` takes back what `encodeList` writes.
-/

namespace ProofRelay.Rlp

/-- The lengths below this one can be marked: those with at most eight bytes. -/
def lengthLimit : Nat := 0x10000000000000000

def tooLong : Fault := .value "Length greater than 256**8"

/-- A length mark: short lengths in one byte, longer ones with the number of their own bytes. -/
def header (base length : Nat) : Except Fault Bytes :=
  if length < 56 then .ok [UInt8.ofNat (base + length)]
  else if length < lengthLimit then
    let size := Bytes.ofNat length
    .ok (UInt8.ofNat (base + 55 + size.length) :: size)
  else .error tooLong

/-- Bytes after the mark of their length. -/
def marked (base : Nat) (body : Bytes) : Except Fault Bytes := do
  let mark ← header base body.length
  return mark ++ body

def encodeString (bs : Bytes) : Except Fault Bytes :=
  match bs with
  | [b] => if b.toNat < 0x80 then .ok [b] else marked 0x80 [b]
  | bs => marked 0x80 bs

/-- Byte strings one after another. -/
def encodeStrings : List Bytes → Except Fault Bytes
  | [] => .ok []
  | item :: items => do
    let first ← encodeString item
    let others ← encodeStrings items
    return first ++ others

def encodeList (items : List Bytes) : Except Fault Bytes := do
  let body ← encodeStrings items
  marked 0xC0 body

/-- Splits off as many bytes as a length mark with this base announces. -/
def payload? (base : Nat) : Bytes → Option (Bytes × Bytes)
  | [] => none
  | b :: rest =>
    if b.toNat < base then none
    else if b.toNat - base < 56 then
      let n := b.toNat - base
      if n ≤ rest.length then some (rest.take n, rest.drop n) else none
    else
      let sizeLength := b.toNat - base - 55
      let n := Bytes.toNat (rest.take sizeLength)
      let body := rest.drop sizeLength
      if sizeLength ≤ rest.length && n ≤ body.length then some (body.take n, body.drop n) else none

/-- Splits off one byte string. -/
def decodeString? : Bytes → Option (Bytes × Bytes)
  | [] => none
  | b :: rest =>
    if b.toNat < 0x80 then some ([b], rest)
    else if b.toNat < 0xC0 then payload? 0x80 (b :: rest)
    else none

/-- All byte strings of a list's body, with fuel for their number. -/
def decodeStrings? : Nat → Bytes → Option (List Bytes)
  | _, [] => some []
  | 0, _ => none
  | fuel + 1, bs => do
    let (item, rest) ← decodeString? bs
    let items ← decodeStrings? fuel rest
    return item :: items

def decodeList? (bs : Bytes) : Option (List Bytes) := do
  let (body, rest) ← payload? 0xC0 bs
  if rest.isEmpty then decodeStrings? body.length body else none

end ProofRelay.Rlp
