import ProofRelay.Bytes.Hex
import ProofRelay.Json.Literal

/-!
A datum is what passes between the relay and a node: raw bytes, or a document value.
-/

namespace ProofRelay

inductive Datum where
  | bytes (bs : Bytes)
  | value (v : Json)

namespace Datum

def text (s : String) : Datum := .value (.text s)

def isTruthy : Datum → Bool
  | .bytes bs => !bs.isEmpty
  | .value v => v.isTruthy

/-- How a message shows a datum. -/
def display : Datum → Text
  | .bytes bs => Text.quotedBytes bs
  | .value v => v.display

/-- The datum as a document, bytes in hexadecimal. -/
def toJson : Datum → Json
  | .bytes bs => .text bs.toHex
  | .value v => v

end Datum

end ProofRelay
