import ProofRelay.Datum
import ProofRelay.Digest.Sha256
import ProofRelay.Fault

/-!
Commitments: `0x` and the 64 lowercase hexadecimal digits of the SHA-256 digest of a proof file.
-/

namespace ProofRelay.Commitment

def ofBytes (data : Bytes) : String := Bytes.toHex0x (Sha256.digest data)

/-- Only bytes are hashed: text would need a choice of encoding. -/
def ofDatum : Datum → Except Fault String
  | .bytes data => .ok (ofBytes data)
  | .value v => .error (.type ("hash_artifact expects bytes, not " ++ v.kindName))

def isLowerHex (c : Char) : Bool := ('0' ≤ c && c ≤ '9') || ('a' ≤ c && c ≤ 'f')

/-- `0x`, then 64 lowercase hexadecimal digits; one line feed may end the text. -/
def hasForm (s : List Char) : Bool :=
  match s with
  | '0' :: 'x' :: body =>
    let digits := body.take 64
    digits.length == 64 && digits.all isLowerHex && (body.drop 64 == [] || body.drop 64 == ['\n'])
  | _ => false

def isCommitment (s : String) : Bool := hasForm s.toList

def refused (shown : String) : Fault := .value ("Not a commitment: " ++ shown)

/-- The 32 bytes of a commitment. -/
def toBytes (s : String) : Except Fault Bytes :=
  if isCommitment s then
    match Bytes.ofSpacedHex? (s.toList.drop 2) with
    | some bs => .ok bs
    | none => .error (refused (quote s))
  else .error (refused (quote s))

/-- The text of a value, where what counts as false stands for the empty text. -/
def textOf (v : Json) : Except Fault String :=
  match v with
  | .str s => .ok (s.toString?.getD "")
  | v =>
    if v.isTruthy then
      .error (.type ("expected string or bytes-like object, got " ++ quote v.kindName))
    else .ok ""

def isCommitmentValue (v : Json) : Except Fault Bool := (textOf v).map isCommitment

def valueToBytes (v : Json) : Except Fault Bytes := do
  let s ← textOf v
  if isCommitment s then toBytes s else .error (refused v.literal)

end ProofRelay.Commitment
