import ProofRelay.Chain.Address
import ProofRelay.Curve.Ecdsa
import ProofRelay.Failure
import ProofRelay.Text.CodePoint

/-!
Private keys. A key is read from hexadecimal text; a failure to read one never shows the text.
-/

namespace ProofRelay

/-- A number between zero and the order of the group, both excluded. -/
structure PrivateKey where
  secret : Nat
  pos : 0 < secret
  lt : secret < Secp256k1.order

namespace PrivateKey

def coordinateBytes : Secp256k1.Point → Bytes
  | .infinity => []
  | .affine x y => Bytes.ofNatWidth 32 x ++ Bytes.ofNatWidth 32 y

/-- The last twenty bytes of the Keccak-256 digest of a public key's coordinates. -/
def addressBytes (p : Secp256k1.Point) : Bytes := (Keccak256.digest (coordinateBytes p)).drop 12

/-- The address text of a public key. -/
def addressOf (p : Secp256k1.Point) : String :=
  match Address.ofBytes? (addressBytes p) with
  | some a => a.toString
  | none => ""

def address (k : PrivateKey) : String :=
  addressOf (Secp256k1.Point.times k.secret Secp256k1.generator)

/-- The digits of a key: a mark is dropped, and a missing first digit is a zero. -/
def digitsOf (s : List Char) : List Char :=
  let body := Address.dropMark s
  if s.length % 2 = 1 then '0' :: body else body

/-- The key that a text spells, or the kind of what is wrong with it. -/
def ofChars (s : List Char) : Except Fault.Kind PrivateKey :=
  let digits := digitsOf s
  if digits.any fun c => 0x80 ≤ c.toNat then .error .unicodeEncode
  else
    match Bytes.ofHex? digits with
    | none => .error .nonHex
    | some bs =>
      if bs.length = 32 then
        let n := Bytes.toNat bs
        if h : 0 < n ∧ n < Secp256k1.order then .ok ⟨n, h.1, h.2⟩ else .error .value
      else .error .value

def refusal (message detail : String) : Trouble :=
  .failure { kind := .key, message := message, detail := detail }

/-- The relayer's key from its configured text. -/
def load (s : String) : Except Trouble PrivateKey :=
  let body := Text.trim s.toList
  if body.isEmpty then .error (refusal "Relayer private key is not configured" "")
  else
    match ofChars body with
    | .ok k => .ok k
    | .error kind => .error (refusal "Relayer private key is malformed" kind.label)

/-- The relayer's key from a configured value, where what counts as false is no key. -/
def loadValue (v : Json) : Except Trouble PrivateKey :=
  match v with
  | .str s =>
    match s.toString? with
    | some s => load s
    | none => .error (refusal "Relayer private key is malformed" Fault.Kind.unicodeEncode.label)
  | v =>
    if v.isTruthy then
      .error (.fault ⟨.member, quote v.kindName ++ " object has no attribute 'strip'"⟩)
    else load ""

end PrivateKey

/-- A key with its address. -/
structure Account where
  key : PrivateKey
  address : String
  address_eq : address = key.address

def Account.ofKey (k : PrivateKey) : Account := ⟨k, k.address, rfl⟩

/-- How logs show an account: by its address, never by its key. -/
def Account.display (a : Account) : String := "LocalKeySigner(address=" ++ a.address ++ ")"

end ProofRelay
