import ProofRelay.Bytes.Utf8
import ProofRelay.Fault
import ProofRelay.Number.Decimal

/-!
The encodings in which a document may come, told apart by a byte order mark or by where zero bytes
stand. Surrogates are let through in all of them.
-/

namespace ProofRelay

/-- An order of bytes within a unit. -/
inductive ByteOrder where
  | little
  | big
deriving DecidableEq, Repr

inductive Encoding where
  | utf8
  | utf16 (order : ByteOrder)
  | utf32 (order : ByteOrder)
deriving DecidableEq, Repr

namespace Encoding

def name : Encoding → String
  | .utf8 => "utf-8"
  | .utf16 .little => "utf-16-le"
  | .utf16 .big => "utf-16-be"
  | .utf32 .little => "utf-32-le"
  | .utf32 .big => "utf-32-be"

/-- An encoding with the number of bytes of the mark before the text, and whether positions in
reports count that mark. -/
structure Detected where
  encoding : Encoding
  mark : Nat := 0
  counted : Bool := false

/-- Without a mark, the zero bytes among the first four tell the width and order of the units. -/
def detectUnmarked : Bytes → Encoding
  | [a, b] => if a = 0 then .utf16 .big else if b = 0 then .utf16 .little else .utf8
  | a :: b :: c :: d :: _ =>
    if a = 0 then (if b = 0 then .utf32 .big else .utf16 .big)
    else if b = 0 then (if c = 0 && d = 0 then .utf32 .little else .utf16 .little)
    else .utf8
  | _ => .utf8

def detect : Bytes → Detected
  | 0x00 :: 0x00 :: 0xFE :: 0xFF :: _ => ⟨.utf32 .big, 4, true⟩
  | 0xFF :: 0xFE :: 0x00 :: 0x00 :: _ => ⟨.utf32 .little, 4, true⟩
  | 0xFE :: 0xFF :: _ => ⟨.utf16 .big, 2, true⟩
  | 0xFF :: 0xFE :: _ => ⟨.utf16 .little, 2, true⟩
  | 0xEF :: 0xBB :: 0xBF :: _ => ⟨.utf8, 3, false⟩
  | bs => ⟨detectUnmarked bs, 0, false⟩

/-- The report that some bytes cannot be read. -/
def undecodable (e : Encoding) (bs : Bytes) (position size : Nat) (why : String) : Fault :=
  let place :=
    if size = 1 then
      "byte 0x" ++ Bytes.toHex ((bs.drop position).take 1) ++ " in position " ++ Decimal.ofNat position
    else
      "bytes in position " ++ Decimal.ofNat position ++ "-" ++ Decimal.ofNat (position + size - 1)
  ⟨.unicodeDecode, quote e.name ++ " codec can't decode " ++ place ++ ": " ++ why⟩

def defectText : Utf8.Defect → String
  | .start => "invalid start byte"
  | .continuation => "invalid continuation byte"
  | .truncated => "unexpected end of data"

/-- The surrogate that three bytes spell by the general scheme of UTF-8. -/
def surrogate? : Bytes → Option CodePoint
  | a :: b :: c :: _ =>
    let n := a.toNat % 16 * 4096 + b.toNat % 64 * 64 + c.toNat % 64
    if a.toNat / 16 = 14 && b.toNat / 64 = 2 && c.toNat / 64 = 2 && 0xD800 ≤ n && n ≤ 0xDFFF then
      some (CodePoint.ofNat n)
    else none
  | _ => none

/-- Reads UTF-8 in which surrogates may be spelled too. `whole` is all of the input, for reports. -/
def utf8From (whole : Bytes) (position : Nat) (done : List CodePoint) : Bytes → Except Fault Text
  | [] => .ok done.reverse
  | b :: rest =>
    match Utf8.piece b rest with
    | .point p n => utf8From whole (position + n) (p :: done) (rest.drop (n - 1))
    | .defect d n =>
      match surrogate? (b :: rest) with
      | some p => utf8From whole (position + 3) (p :: done) (rest.drop 2)
      | none => .error (undecodable .utf8 whole position n (defectText d))
termination_by bs => bs.length
decreasing_by all_goals (simp only [List.length_drop, List.length_cons]; omega)

def unit16 (order : ByteOrder) (a b : UInt8) : Nat :=
  match order with
  | .little => b.toNat * 256 + a.toNat
  | .big => a.toNat * 256 + b.toNat

def unit32 (order : ByteOrder) (a b c d : UInt8) : Nat :=
  match order with
  | .little => d.toNat * 16777216 + c.toNat * 65536 + b.toNat * 256 + a.toNat
  | .big => a.toNat * 16777216 + b.toNat * 65536 + c.toNat * 256 + d.toNat

def isHigh (n : Nat) : Bool := 0xD800 ≤ n && n ≤ 0xDBFF

def isLow (n : Nat) : Bool := 0xDC00 ≤ n && n ≤ 0xDFFF

/-- The units of UTF-16, or the position of a byte that is left over. -/
def units16 (order : ByteOrder) (position : Nat) (done : List Nat) : Bytes → Except Nat (List Nat)
  | [] => .ok done.reverse
  | [_] => .error position
  | a :: b :: rest => units16 order (position + 2) (unit16 order a b :: done) rest

/-- Joins pairs of surrogates; one that stands alone stays. -/
def joinUnits (done : List CodePoint) : List Nat → Text
  | [] => done.reverse
  | [n] => (CodePoint.ofNat n :: done).reverse
  | n :: m :: rest =>
    if isHigh n && isLow m then
      joinUnits (CodePoint.ofNat (0x10000 + (n - 0xD800) * 1024 + (m - 0xDC00)) :: done) rest
    else joinUnits (CodePoint.ofNat n :: done) (m :: rest)

def utf32From (order : ByteOrder) (whole : Bytes) (position : Nat) (done : List CodePoint) :
    Bytes → Except Fault Text
  | [] => .ok done.reverse
  | a :: b :: c :: d :: rest =>
    let n := unit32 order a b c d
    if n < 0x110000 then utf32From order whole (position + 4) (CodePoint.ofNat n :: done) rest
    else .error (undecodable (.utf32 order) whole position 4 "code point not in range(0x110000)")
  | bs => .error (undecodable (.utf32 order) whole position bs.length "truncated data")

/-- The text of a document given as bytes. -/
def decodeDocument (bs : Bytes) : Except Fault Text :=
  let d := detect bs
  let body := bs.drop d.mark
  let whole := if d.counted then bs else body
  let position := if d.counted then d.mark else 0
  match d.encoding with
  | .utf8 => utf8From whole position [] body
  | .utf16 order =>
    match units16 order position [] body with
    | .ok units => .ok (joinUnits [] units)
    | .error place => .error (undecodable (.utf16 order) whole place 1 "truncated data")
  | .utf32 order => utf32From order whole position [] body

/-- The text of a file, which is UTF-8 without surrogates. -/
def decodeStrict (bs : Bytes) : Except Fault Text :=
  let ps := Utf8.pieces bs
  match Utf8.firstDefect 0 ps with
  | none => .ok (Utf8.points ps)
  | some (d, position, size) => .error (undecodable .utf8 bs position size (defectText d))

end Encoding

end ProofRelay
