import ProofRelay.Curve.Secp256k1
import ProofRelay.Digest.Sha256

/-!
Signatures on secp256k1. The nonce of a signature is derived from key and digest (RFC 6979), and of the
two values of `s` that verify the lower one is taken.
-/

namespace ProofRelay.Ecdsa

open Secp256k1

/-- A signature with the parity that picks one of the two points with abscissa `r`. -/
structure Signature where
  r : Nat
  s : Nat
  odd : Bool
deriving DecidableEq, Repr

/-- The nonce for a key and a digest. -/
def nonce (secret : Nat) (digest : Bytes) : Nat :=
  let seed := Bytes.ofNatWidth 32 secret ++ digest
  let v₀ : Bytes := List.replicate 32 1
  let k₁ := Sha256.hmac (List.replicate 32 0) (v₀ ++ 0 :: seed)
  let v₁ := Sha256.hmac k₁ v₀
  let k₂ := Sha256.hmac k₁ (v₁ ++ 1 :: seed)
  let v₂ := Sha256.hmac k₂ v₁
  Bytes.toNat (Sha256.hmac k₂ v₂)

def sign (secret : Nat) (digest : Bytes) : Signature :=
  let k := nonce secret digest
  match Point.times k generator with
  | .infinity => ⟨0, 0, false⟩
  | .affine x y =>
    let s := inverse k order * (Bytes.toNat digest + x * secret) % order
    if 2 * s < order then ⟨x, s, y % 2 == 1⟩ else ⟨x, order - s, y % 2 == 0⟩

/-- The public key under which a signature of a digest verifies. -/
def recover? (sig : Signature) (digest : Bytes) : Option Point :=
  if sig.r = 0 || sig.s = 0 then none
  else
    match lift? sig.r sig.odd with
    | none => none
    | some p =>
      let w := inverse sig.r order
      let u₁ := (order - Bytes.toNat digest % order) * w % order
      let u₂ := sig.s * w % order
      match Point.add (Point.times u₁ generator) (Point.times u₂ p) with
      | .infinity => none
      | q => some q

end ProofRelay.Ecdsa
