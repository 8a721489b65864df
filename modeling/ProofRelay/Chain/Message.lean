import ProofRelay.Chain.Key

/-!
Signed messages (EIP-191): the text is hashed behind a mark and its length in bytes, and the signature's
last byte tells which of two public keys made it.
-/

namespace ProofRelay.Message

/-- What is hashed for a text. -/
def envelope (text : String) : Bytes :=
  let body := Utf8.encode text
  0x19 :: Utf8.encode ("Ethereum Signed Message:\n" ++ Decimal.ofNat body.length) ++ body

def digest (text : String) : Bytes := Keccak256.digest (envelope text)

/-- Whether the point's ordinate is odd, from the last byte of a signature. -/
def parity? (v : Nat) : Option Bool :=
  if v = 0 || v = 27 then some false
  else if v = 1 || v = 28 then some true
  else if 35 ≤ v then some ((v - 35) % 2 == 1)
  else none

def inRange (n : Nat) : Except String Unit :=
  if n < Secp256k1.order then .ok ()
  else .error ("Value " ++ Decimal.ofNat n ++ " is not less than or equal to " ++
    Decimal.ofNat (Secp256k1.order - 1))

/-- The address that signed `text`, from 65 bytes `r`, `s`, `v`; else what is wrong with them. -/
def signer (text : String) (signature : Bytes) : Except String String := do
  let v := ((signature.drop 64).take 1).foldl (fun _ b => b.toNat) 0
  match parity? v with
  | none => .error ("v " ++ Decimal.ofNat v ++ " is invalid, must be one of: 0, 1, 27, 28, 35+")
  | some odd =>
    let r := Bytes.toNat (signature.take 32)
    let s := Bytes.toNat ((signature.drop 32).take 32)
    inRange r
    inRange s
    match Ecdsa.recover? ⟨r, s, odd⟩ (digest text) with
    | some p => .ok (PrivateKey.addressOf p)
    | none => .error "Invalid signature"

/-- The same from hexadecimal text after `0x`. -/
def signerOfText (text : String) (signature : String) : Except String String :=
  match Bytes.ofHex? (Address.dropMark signature.toList) with
  | some bs => signer text bs
  | none => .error "Non-hexadecimal digit found"

end ProofRelay.Message
