import ProofRelay.Chain.Transaction
import ProofRelay.Json.Writer

/-!
Signers: an address, and a way to turn the fields of a transaction into raw bytes. Whoever has both is a
signer; there is one with a private key, and there are two for tests.
-/

namespace ProofRelay

structure Signer where
  address : String
  /-- The raw bytes of a transaction with these fields, unless the signer refuses them. -/
  sign : List (String × Json) → Except Fault Bytes

namespace Signer

/-- Signs with a private key. -/
def key (account : Account) : Signer where
  address := account.address
  sign fields := do
    let p ← Payload.ofDocument account.address (.record fields)
    p.sign account.key

/-- Writes the fields out as a document together with the address. -/
def plain (address : String) : Signer where
  address := address
  sign fields := (Json.write Json.usualLevels (.record (("from", .text address) :: fields))).map Utf8.encode

/-- Refuses to sign. -/
def refusing (address : String) (f : Fault) : Signer where
  address := address
  sign _ := .error f

end Signer

end ProofRelay
